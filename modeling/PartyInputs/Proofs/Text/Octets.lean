import PartyInputs.Text.Utf8

/-!
# Cutting a text and cutting its octets

UTF-8 gives an ASCII character one octet below `0x80` and every other character octets from `0x80`
on. So a class of ASCII characters can be recognised octet by octet: cutting the octets of a text
at the members of the class and encoding the pieces of the text come to the same.

* `notMem_of_mem_splitOnP`: no piece holds what was cut at.
* `Utf8.encodeChar_of_ascii`, `Utf8.le_of_mem_encodeChar`: the two kinds of characters.
* `Utf8.AsciiClass`: a class of ASCII characters, known by characters and by octets.
* `Utf8.AsciiClass.splitOnP_encode`: **cutting commutes with encoding**.
* `Utf8.AsciiClass.countP_encode`: so does counting.
-/

namespace PartyInputs

/-- Pieces that a list is cut into hold none of the elements that it was cut at. -/
theorem notMem_of_mem_splitOnP {α : Type} {p : α → Bool} {xs : List α} :
    ∀ {piece : List α}, piece ∈ xs.splitOnP p → ∀ x ∈ piece, p x = false := by
  induction xs with
  | nil =>
    intro piece h x hx
    rw [List.splitOnP_nil, List.mem_singleton] at h
    rw [h] at hx
    cases hx
  | cons y ys ih =>
    intro piece h x hx
    rw [List.splitOnP_cons_eq_if_modifyHead] at h
    by_cases hy : p y = true
    · rw [if_pos hy, List.mem_cons] at h
      rcases h with rfl | h
      · cases hx
      · exact ih h x hx
    · rw [if_neg hy] at h
      obtain ⟨first, pieces, hp⟩ := List.exists_cons_of_ne_nil (List.splitOnP_ne_nil p ys)
      rw [hp, List.modifyHead_cons, List.mem_cons] at h
      rcases h with rfl | h
      · rcases List.mem_cons.1 hx with rfl | hx
        · exact Bool.eq_false_iff.2 hy
        · exact ih (by rw [hp]; exact List.mem_cons_self) x hx
      · exact ih (by rw [hp]; exact List.mem_cons_of_mem _ h) x hx

namespace Text.Utf8

/-! ## One character -/

/-- An ASCII character is its own octet. -/
theorem encodeChar_of_ascii {c : Char} (h : c.toNat < 0x80) :
    encodeChar c = [UInt8.ofNat c.toNat] := by
  have hle : c.val.toNat ≤ 0x7f := by
    have : c.val.toNat = c.toNat := rfl
    omega
  simp only [encodeChar, String.utf8EncodeChar, hle, if_true]
  rfl

/-- An octet made of a marker from `0x80` on and a payload that fits below the next marker is
itself from `0x80` on. -/
theorem le_toNat_ofNat_marked {payload marker : Nat} (hm : 0x80 ≤ marker)
    (hlt : payload + marker < 0x100) : 0x80 ≤ (UInt8.ofNat (payload + marker)).toNat := by
  rw [UInt8.toNat_ofNat', Nat.mod_eq_of_lt hlt]
  omega

/-- The octets of a character beyond ASCII are beyond ASCII. -/
theorem le_of_mem_encodeChar {c : Char} (h : 0x80 ≤ c.toNat) {o : UInt8} (ho : o ∈ encodeChar c) :
    0x80 ≤ o.toNat := by
  have hgt : ¬ c.val.toNat ≤ 0x7f := by
    have : c.val.toNat = c.toNat := rfl
    omega
  simp only [encodeChar, String.utf8EncodeChar, hgt, if_false] at ho
  split at ho
  · simp only [List.mem_cons, List.not_mem_nil, or_false] at ho
    rcases ho with rfl | rfl <;> exact le_toNat_ofNat_marked (by decide) (by omega)
  · split at ho
    · simp only [List.mem_cons, List.not_mem_nil, or_false] at ho
      rcases ho with rfl | rfl | rfl <;> exact le_toNat_ofNat_marked (by decide) (by omega)
    · simp only [List.mem_cons, List.not_mem_nil, or_false] at ho
      rcases ho with rfl | rfl | rfl | rfl <;>
        exact le_toNat_ofNat_marked (by decide) (by omega)

/-- ASCII characters take one octet each. -/
theorem length_encode_of_ascii {text : List Char} (h : ∀ c ∈ text, c.toNat < 0x80) :
    (encode text).length = text.length := by
  induction text with
  | nil => rfl
  | cons c text ih =>
    rw [encode_cons, encodeChar_of_ascii (h c List.mem_cons_self), List.singleton_append,
      List.length_cons, List.length_cons, ih fun d hd => h d (List.mem_cons_of_mem c hd)]

/-- Nothing is written for the empty text only. -/
theorem encode_eq_nil_iff {text : List Char} : encode text = [] ↔ text = [] := by
  rcases text with _ | ⟨c, text⟩
  · simp [encode_nil]
  · simp [encode_cons]

/-- A text whose first octet is ASCII starts with that character. -/
theorem exists_cons_of_encode_eq_cons {text : List Char} {o : UInt8} {octets : List UInt8}
    (ho : o.toNat < 0x80) (h : encode text = o :: octets) :
    ∃ rest, text = Char.ofNat o.toNat :: rest ∧ encode rest = octets := by
  rcases text with _ | ⟨c, rest⟩
  · cases h
  · rw [encode_cons] at h
    by_cases hc : c.toNat < 0x80
    · rw [encodeChar_of_ascii hc, List.singleton_append, List.cons.injEq] at h
      obtain ⟨rfl, hrest⟩ := h
      refine ⟨rest, ?_, hrest⟩
      rw [UInt8.toNat_ofNat', Nat.mod_eq_of_lt (by omega), Char.ofNat_toNat]
    · rcases he : encodeChar c with _ | ⟨x, xs⟩
      · exact absurd he (encodeChar_ne_nil c)
      · rw [he, List.cons_append, List.cons.injEq] at h
        have hx := le_of_mem_encodeChar (Nat.le_of_not_lt hc) (o := x) (by simp [he])
        rw [h.1] at hx
        omega

/-! ## Classes of ASCII characters -/

/-- `p` and `q` recognise one class of ASCII characters, the one by characters and the other by
octets. -/
structure AsciiClass (p : Char → Bool) (q : UInt8 → Bool) : Prop where
  /-- They agree below `0x80`. -/
  agree : ∀ n < 0x80, q (UInt8.ofNat n) = p (Char.ofNat n)
  /-- No other character is in the class. -/
  char : ∀ c, 0x80 ≤ c.toNat → p c = false
  /-- No other octet is in the class. -/
  octet : ∀ o, 0x80 ≤ o.toNat → q o = false

namespace AsciiClass

variable {p : Char → Bool} {q : UInt8 → Bool}

/-- A character is in the class as its only octet or not at all. -/
theorem encodeChar_cases (h : AsciiClass p q) (c : Char) :
    (∃ o, encodeChar c = [o] ∧ q o = true ∧ p c = true) ∨
      ((∀ o ∈ encodeChar c, q o = false) ∧ p c = false) := by
  by_cases hc : c.toNat < 0x80
  · have hagree := h.agree c.toNat hc
    rw [Char.ofNat_toNat] at hagree
    rw [encodeChar_of_ascii hc]
    rcases hp : p c with _ | _
    · refine .inr ⟨?_, rfl⟩
      intro o ho
      rw [List.mem_singleton.1 ho, hagree, hp]
    · exact .inl ⟨_, rfl, by rw [hagree, hp], rfl⟩
  · have hle : 0x80 ≤ c.toNat := Nat.le_of_not_lt hc
    exact .inr ⟨fun o ho => h.octet o (le_of_mem_encodeChar hle ho), h.char c hle⟩

/-- Octets outside of the class in front of a list join the first piece that it is cut into. -/
theorem splitOnP_append_of_notMem {front : List UInt8} (hfront : ∀ o ∈ front, q o = false)
    (rest : List UInt8) :
    (front ++ rest).splitOnP q = (rest.splitOnP q).modifyHead (front ++ ·) := by
  induction front with
  | nil =>
    rw [List.nil_append]
    rcases rest.splitOnP q with _ | ⟨piece, pieces⟩ <;> rfl
  | cons o front ih =>
    have ho : q o = false := hfront o List.mem_cons_self
    rw [List.cons_append, List.splitOnP_cons_eq_if_modifyHead, ho,
      ih fun x hx => hfront x (List.mem_cons_of_mem _ hx)]
    rcases rest.splitOnP q with _ | ⟨piece, pieces⟩ <;> rfl

/-- **Cutting commutes with encoding**: the octets of a text, cut at the octets of the class, are
the pieces of the text, cut at the characters of the class and encoded. -/
theorem splitOnP_encode (h : AsciiClass p q) (text : List Char) :
    (encode text).splitOnP q = (text.splitOnP p).map encode := by
  induction text with
  | nil => rfl
  | cons c text ih =>
    rw [encode_cons, List.splitOnP_cons_eq_if_modifyHead]
    rcases h.encodeChar_cases c with ⟨o, hc, ho, hp⟩ | ⟨hout, hp⟩
    · rw [hc, List.singleton_append, List.splitOnP_cons_eq_if_modifyHead, ho, hp, ih]
      rfl
    · rw [splitOnP_append_of_notMem hout, hp, ih]
      rcases text.splitOnP p with _ | ⟨piece, pieces⟩ <;> rfl

/-- A text has as many characters of the class as its encoding has octets of it. -/
theorem countP_encode (h : AsciiClass p q) (text : List Char) :
    (encode text).countP q = text.countP p := by
  induction text with
  | nil => rfl
  | cons c text ih =>
    rw [encode_cons, List.countP_append, List.countP_cons, ih]
    rcases h.encodeChar_cases c with ⟨o, hc, ho, hp⟩ | ⟨hout, hp⟩
    · rw [hc, List.countP_singleton, ho, hp, Nat.add_comm]
    · rw [List.countP_eq_zero.2 fun o ho => by simp [hout o ho], hp]
      simp

/-- A text is in the class as a whole iff its encoding is. -/
theorem all_encode (h : AsciiClass p q) (text : List Char) : (encode text).all q = text.all p := by
  induction text with
  | nil => rfl
  | cons c text ih =>
    rw [encode_cons, List.all_append, List.all_cons, ih]
    rcases h.encodeChar_cases c with ⟨o, hc, ho, hp⟩ | ⟨hout, hp⟩
    · rw [hc, hp]
      simp [ho]
    · rcases he : encodeChar c with _ | ⟨x, xs⟩
      · exact absurd he (encodeChar_ne_nil c)
      · rw [List.all_cons, hout x (by simp [he]), hp]
        rfl

/-- A text ends in the class iff its encoding does. -/
theorem any_getLast?_encode (h : AsciiClass p q) (text : List Char) :
    (encode text).getLast?.any q = text.getLast?.any p := by
  rcases List.eq_nil_or_concat text with rfl | ⟨text, c, rfl⟩
  · rfl
  · obtain ⟨o, ho⟩ : ∃ o, (encodeChar c).getLast? = some o :=
      ⟨_, List.getLast?_eq_some_getLast (encodeChar_ne_nil c)⟩
    have hlast : (encode (text ++ [c])).getLast? = some o := by
      rw [encode_append, encode_cons, encode_nil, List.append_nil, List.getLast?_append, ho]
      rfl
    rw [List.concat_eq_append, hlast, List.getLast?_concat, Option.any_some, Option.any_some]
    rcases h.encodeChar_cases c with ⟨x, hc, hx, hp⟩ | ⟨hout, hp⟩
    · rw [hc, List.getLast?_singleton, Option.some.injEq] at ho
      rw [← ho, hx, hp]
    · rw [hout o (List.mem_of_getLast? ho), hp]

end AsciiClass

end Text.Utf8

end PartyInputs
