/-!
# Characters as octets

Text is exchanged as octets in UTF-8. `encode` writes characters down; `decode` reads octets back
and, when they are not the encoding of any text, names the offset at which the longest readable
prefix ends.

## Main statements

* `decode_encode`: what was written is read back.
* `eq_encode_of_decode`: octets that can be read are the encoding of what was read.
* `decode_encode_append`: reading goes on after an encoded prefix as if it stood at the start, with
  offsets shifted by the length of the prefix.
-/

namespace PartyInputs.Text.Utf8

/-- The octets of one character. -/
abbrev encodeChar (c : Char) : List UInt8 := String.utf8EncodeChar c

/-- The octets of a text, character by character. -/
def encode (text : List Char) : List UInt8 := text.flatMap encodeChar

/-- The octets of a string. -/
abbrev ofString (text : String) : List UInt8 := encode text.toList

/-- The character whose encoding stands at the head of `octets`, if there is one. No encoding is
longer than four octets, so only those are looked at. -/
def head? (octets : List UInt8) : Option Char := (octets.take 4).toByteArray.utf8DecodeChar? 0

/-- Reads characters until the octets end or no encoding stands at the head of the rest.
`offset` counts the octets read so far and `text` holds their characters, the last one first. -/
def decodeFrom (offset : Nat) (text : List Char) (octets : List UInt8) :
    Except Nat (List Char) :=
  if octets.isEmpty then .ok text.reverse
  else match head? octets with
    | none => .error offset
    | some c => decodeFrom (offset + c.utf8Size) (c :: text) (octets.drop c.utf8Size)
termination_by octets.length
decreasing_by
  have hpos := c.utf8Size_pos
  have hne : octets.length ≠ 0 := by simp_all
  simp only [List.length_drop]
  omega

/-- The text that `octets` encode, or the length of their longest prefix that encodes a text. -/
def decode (octets : List UInt8) : Except Nat (List Char) := decodeFrom 0 [] octets

/-! ## One character -/

theorem encode_nil : encode [] = [] := rfl

theorem encode_cons (c : Char) (text : List Char) :
    encode (c :: text) = encodeChar c ++ encode text := rfl

@[simp] theorem encode_append (s t : List Char) : encode (s ++ t) = encode s ++ encode t := by
  simp [encode]

/-- An encoding at the head is found, whatever follows it. -/
theorem head?_encodeChar_append (c : Char) (rest : List UInt8) :
    head? (encodeChar c ++ rest) = some c := by
  have hlen : (encodeChar c).length ≤ 4 := by
    rw [String.length_utf8EncodeChar]; exact c.utf8Size_le_four
  unfold head?
  rw [List.take_append, List.take_of_length_le hlen, List.toByteArray_append]
  exact ByteArray.utf8DecodeChar?_utf8EncodeChar_append

/-- A character that is found at the head has its encoding there. -/
theorem eq_encodeChar_append_of_head? {octets : List UInt8} {c : Char} (h : head? octets = some c) :
    octets = encodeChar c ++ octets.drop c.utf8Size := by
  obtain ⟨rest, hrest⟩ := ByteArray.exists_of_utf8DecodeChar?_eq_some h
  have htake : octets.take 4 = encodeChar c ++ rest.data.toList := by
    have := congrArg (fun b => b.data.toList) hrest
    simpa using this
  have hocts : octets = encodeChar c ++ (rest.data.toList ++ octets.drop 4) := by
    rw [← List.append_assoc, ← htake, List.take_append_drop]
  have hdrop : octets.drop c.utf8Size = rest.data.toList ++ octets.drop 4 := by
    conv => lhs; rw [hocts]
    rw [← String.length_utf8EncodeChar c, List.drop_left]
  rw [hdrop, ← hocts]

/-! ## Whole texts -/

theorem encodeChar_ne_nil (c : Char) : encodeChar c ≠ [] := String.utf8EncodeChar_ne_nil

theorem decodeFrom_nil (offset : Nat) (text : List Char) :
    decodeFrom offset text [] = .ok text.reverse := by
  rw [decodeFrom]; rfl

theorem decodeFrom_of_head?_eq_none {octets : List UInt8} (offset : Nat) (text : List Char)
    (hne : octets ≠ []) (h : head? octets = none) :
    decodeFrom offset text octets = .error offset := by
  rw [decodeFrom]; simp [hne, h]

theorem decodeFrom_encodeChar_append (offset : Nat) (text : List Char) (c : Char)
    (rest : List UInt8) :
    decodeFrom offset text (encodeChar c ++ rest) =
      decodeFrom (offset + c.utf8Size) (c :: text) rest := by
  have hne : encodeChar c ++ rest ≠ [] := by simp
  have hdrop : (encodeChar c ++ rest).drop c.utf8Size = rest := by
    rw [← String.length_utf8EncodeChar c, List.drop_left]
  rw [decodeFrom, head?_encodeChar_append]
  simp only [List.isEmpty_iff, hne, if_false, hdrop]

/-- An encoded prefix is consumed character by character. -/
theorem decodeFrom_encode_append (s : List Char) (rest : List UInt8) :
    ∀ (offset : Nat) (text : List Char),
      decodeFrom offset text (encode s ++ rest) =
        decodeFrom (offset + (encode s).length) (s.reverse ++ text) rest := by
  induction s with
  | nil => intro offset text; simp [encode_nil]
  | cons c s ih =>
    intro offset text
    rw [encode_cons, List.append_assoc, decodeFrom_encodeChar_append, ih]
    simp [Nat.add_assoc]

/-- What was written is read back. -/
theorem decode_encode (s : List Char) : decode (encode s) = .ok s := by
  have h := decodeFrom_encode_append s [] 0 []
  rw [List.append_nil, decodeFrom_nil] at h
  rw [decode, h]; simp

/-- Every run of the reader consumes the encoding of a text and then either meets the end or
stands before octets with no character at their head. -/
theorem decodeFrom_split (octets : List UInt8) : ∀ (offset : Nat) (text : List Char),
    ∃ (s : List Char) (rest : List UInt8), octets = encode s ++ rest ∧
      ((rest = [] ∧ decodeFrom offset text octets = .ok (text.reverse ++ s)) ∨
        (rest ≠ [] ∧ head? rest = none ∧
          decodeFrom offset text octets = .error (offset + (encode s).length))) := by
  induction hn : octets.length using Nat.strongRecOn generalizing octets with
  | _ n ih =>
    intro offset text
    by_cases hnil : octets = []
    · exact ⟨[], [], by simp [hnil, encode_nil], .inl ⟨rfl, by rw [hnil, decodeFrom_nil]; simp⟩⟩
    · rcases hh : head? octets with _ | c
      · refine ⟨[], octets, rfl, .inr ⟨hnil, hh, ?_⟩⟩
        simpa [encode_nil] using decodeFrom_of_head?_eq_none offset text hnil hh
      · have heq := eq_encodeChar_append_of_head? hh
        have hlt : (octets.drop c.utf8Size).length < n := by
          have := c.utf8Size_pos
          have : octets.length ≠ 0 := by simp [hnil]
          rw [List.length_drop]; omega
        obtain ⟨s, rest, hs, hcases⟩ :=
          ih _ hlt (octets.drop c.utf8Size) rfl (offset + c.utf8Size) (c :: text)
        refine ⟨c :: s, rest, ?_, ?_⟩
        · rw [encode_cons, List.append_assoc, ← hs]; exact heq
        · rw [heq, decodeFrom_encodeChar_append]
          rcases hcases with ⟨hr, hd⟩ | ⟨hr, hno, hd⟩
          · exact .inl ⟨hr, by rw [hd]; simp⟩
          · exact .inr ⟨hr, hno, by rw [hd, encode_cons]; simp [Nat.add_assoc]⟩

/-- Octets that can be read are the encoding of what was read. -/
theorem eq_encode_of_decode {octets : List UInt8} {s : List Char} (h : decode octets = .ok s) :
    octets = encode s := by
  obtain ⟨t, rest, hoct, ⟨hr, hd⟩ | ⟨-, -, hd⟩⟩ := decodeFrom_split octets 0 []
  · rw [decode, hd] at h
    simp only [List.reverse_nil, List.nil_append, Except.ok.injEq] at h
    rw [hoct, hr, h, List.append_nil]
  · rw [decode, hd] at h; cases h

/-- Reading goes on after an encoded prefix as if it stood at the start, with offsets shifted by
the length of the prefix. -/
theorem decode_encode_append (s : List Char) (rest : List UInt8) :
    decode (encode s ++ rest) =
      match decode rest with
      | .ok t => .ok (s ++ t)
      | .error offset => .error ((encode s).length + offset) := by
  obtain ⟨t, tail, hrest, hcases⟩ := decodeFrom_split rest 0 []
  rcases hcases with ⟨hr, hd⟩ | ⟨hr, hno, hd⟩
  · subst hr
    rw [decode, decode, hd, hrest, decodeFrom_encode_append, decodeFrom_encode_append,
      decodeFrom_nil]
    simp
  · rw [decode, decode, hd, hrest, decodeFrom_encode_append, decodeFrom_encode_append,
      decodeFrom_of_head?_eq_none _ _ hr hno]
    simp

end PartyInputs.Text.Utf8
