import PartyInputs.Proofs.Table.Attempts

/-!
# Where values start

The first octet that is written for a value is the separator in front of it, or, if nothing stands
in front of it on its line, its first character. These octets can be told from the octets alone, so
how many values were begun when a text is cut off can be counted without reading it.

* `Leads`: **the first octet of a value**, and `leadCount`: how many there are.
* `leadCount_concat`: one octet more.
* `leadCount_append_take`: **however a value is cut off, it counts once**.
* `countP_leads_append`: counting up to an offset is counting in what stands up to there.
* `Transcript.continueRow_drawn`: the rest of a row draws the values that are led in what there is
  room for and in one octet more.
-/

namespace PartyInputs

/-- A line starts behind the octets. -/
def StartsLine (octets : List UInt8) : Prop := octets = [] ∨ octets.getLast? = some terminator

instance (octets : List UInt8) : Decidable (StartsLine octets) :=
  inferInstanceAs (Decidable (_ ∨ _))

/-- The octet at an offset is the first one that is written for a value. -/
def Leads (text : List UInt8) (offset : Nat) : Prop :=
  ∃ o ∈ text[offset]?, o = separator ∨ (o ≠ terminator ∧ StartsLine (text.take offset))

instance (text : List UInt8) (offset : Nat) : Decidable (Leads text offset) :=
  inferInstanceAs (Decidable (∃ o ∈ text[offset]?, _))

/-- The number of values of which an octet stands in the text. -/
def leadCount (text : List UInt8) : Nat :=
  (List.range text.length).countP fun offset => Leads text offset

/-! ## One octet more -/

theorem startsLine_concat {octets : List UInt8} {o : UInt8} :
    StartsLine (octets ++ [o]) ↔ o = terminator := by
  simp [StartsLine]

/-- What follows an offset does not matter for it. -/
theorem leads_append_iff {text more : List UInt8} {offset : Nat} (h : offset < text.length) :
    Leads (text ++ more) offset ↔ Leads text offset := by
  unfold Leads
  rw [List.getElem?_append_left h, List.take_append_of_le_length (Nat.le_of_lt h)]

/-- Counting up to an offset is counting in what stands up to there. -/
theorem countP_leads_append (text more : List UInt8) :
    ((List.range text.length).countP fun offset => Leads (text ++ more) offset) =
      leadCount text := by
  refine List.countP_congr fun offset ho => ?_
  rw [decide_eq_true_iff, decide_eq_true_iff, leads_append_iff (List.mem_range.1 ho)]

theorem leadCount_take {text : List UInt8} {n : Nat} (h : n ≤ text.length) :
    leadCount (text.take n) = (List.range n).countP fun offset => Leads text offset := by
  have hcount := countP_leads_append (text.take n) (text.drop n)
  rw [List.take_append_drop, List.length_take, Nat.min_eq_left h] at hcount
  exact hcount.symm

/-- **One octet more**: it leads a value if it is a separator, or if it starts a line and does not
end it. -/
theorem leadCount_concat (text : List UInt8) (o : UInt8) :
    leadCount (text ++ [o]) = leadCount text +
      if o = separator ∨ (o ≠ terminator ∧ StartsLine text) then 1 else 0 := by
  have hlast : Leads (text ++ [o]) text.length ↔
      o = separator ∨ (o ≠ terminator ∧ StartsLine text) := by
    simp [Leads]
  rw [leadCount, List.length_append, List.length_singleton, List.range_succ, List.countP_append,
    countP_leads_append, List.countP_singleton]
  simp only [hlast, decide_eq_true_iff]

/-- A line starts behind a row. -/
theorem startsLine_append_encodeRow (octets : List UInt8) (values : List Int64) :
    StartsLine (octets ++ encodeRow values) := by
  rw [encodeRow, ← List.append_assoc, startsLine_concat]

theorem leadCount_append_separator (text : List UInt8) :
    leadCount (text ++ [separator]) = leadCount text + 1 := by
  rw [leadCount_concat, if_pos (.inl rfl)]

theorem leadCount_append_terminator (text : List UInt8) :
    leadCount (text ++ [terminator]) = leadCount text := by
  rw [leadCount_concat, if_neg (by simp [show terminator ≠ separator by decide])]
  rfl

/-! ## Runs of octets -/

theorem ne_of_isBlankOctet_eq_false {o : UInt8} (h : Table.isBlankOctet o = false) :
    o ≠ separator ∧ o ≠ terminator := by
  constructor
  · rintro rfl
    revert h
    decide
  · rintro rfl
    revert h
    decide

/-- A run that goes on behind the start of a line leads nothing. -/
theorem leadCount_append_of_not_startsLine (run : List UInt8) : ∀ {text : List UInt8},
    ¬ StartsLine text → (∀ o ∈ run, Table.isBlankOctet o = false) →
      leadCount (text ++ run) = leadCount text := by
  induction run with
  | nil => intro text _ _; rw [List.append_nil]
  | cons o run ih =>
    intro text hstart hrun
    obtain ⟨ho, hrest⟩ := List.forall_mem_cons.1 hrun
    obtain ⟨hseparator, hterminator⟩ := ne_of_isBlankOctet_eq_false ho
    rw [List.append_cons, ih (fun h => hterminator (startsLine_concat.1 h)) hrest,
      leadCount_concat, if_neg (not_or.2 ⟨hseparator, fun h => hstart h.2⟩)]
    rfl

/-- A run that starts a line leads one value. -/
theorem leadCount_append_of_startsLine {text run : List UInt8} (hstart : StartsLine text)
    (hne : run ≠ []) (hrun : ∀ o ∈ run, Table.isBlankOctet o = false) :
    leadCount (text ++ run) = leadCount text + 1 := by
  obtain ⟨o, rest, rfl⟩ := List.exists_cons_of_ne_nil hne
  obtain ⟨ho, hrest⟩ := List.forall_mem_cons.1 hrun
  have hterminator : o ≠ terminator := (ne_of_isBlankOctet_eq_false ho).2
  rw [List.append_cons,
    leadCount_append_of_not_startsLine rest (fun h => hterminator (startsLine_concat.1 h)) hrest,
    leadCount_concat, if_pos (.inr ⟨hterminator, hstart⟩)]

/-! ## Values -/

theorem isBlankOctet_of_mem_encodeValue {v : Int64} {o : UInt8} (h : o ∈ encodeValue v) :
    Table.isBlankOctet o = false := by
  have hnone : (encodeValue v).countP Table.isBlankOctet = 0 := by
    rw [encodeValue, Table.asciiClass_isBlank.countP_encode, List.countP_eq_zero]
    intro c hc
    rw [Table.isBlank_of_mem_numeral hc]
    decide
  exact Bool.eq_false_iff.2 (List.countP_eq_zero.1 hnone o h)

variable {written : Nat} {text : List UInt8}

theorem encodeNext_ne_nil (written : Nat) (v : Int64) : encodeNext written v ≠ [] :=
  fun h => Transcript.encodeValue_ne_nil v (List.append_eq_nil_iff.1 h).2

/-- No line starts behind a value. -/
theorem not_startsLine_append_encodeNext (written : Nat) (v : Int64) (text : List UInt8) :
    ¬ StartsLine (text ++ encodeNext written v) := by
  have hne : encodeValue v ≠ [] := Transcript.encodeValue_ne_nil v
  rw [StartsLine, List.append_eq_nil_iff, encodeNext, ← List.append_assoc,
    List.getLast?_append_of_ne_nil _ hne]
  rintro (⟨-, h⟩ | h)
  · exact hne (List.append_eq_nil_iff.1 h).2
  · exact (ne_of_isBlankOctet_eq_false (isBlankOctet_of_mem_encodeValue (List.mem_of_getLast? h))).2
      rfl

/-- **However a value is cut off, it counts once**, unless nothing of it is left. -/
theorem leadCount_append_take (hstart : written = 0 ↔ StartsLine text) (v : Int64) {k : Nat}
    (hk : 0 < k) : leadCount (text ++ (encodeNext written v).take k) = leadCount text + 1 := by
  have hrun : ∀ n, ∀ o ∈ (encodeValue v).take n, Table.isBlankOctet o = false :=
    fun n o ho => isBlankOctet_of_mem_encodeValue (List.mem_of_mem_take ho)
  obtain ⟨k, rfl⟩ := Nat.exists_eq_add_one_of_ne_zero (Nat.ne_of_gt hk)
  unfold encodeNext encodeFront
  by_cases hw : written = 0
  · rw [if_pos hw, List.nil_append]
    refine leadCount_append_of_startsLine (hstart.1 hw) ?_ (hrun _)
    rw [ne_eq, List.take_eq_nil_iff, not_or]
    exact ⟨Nat.succ_ne_zero k, Transcript.encodeValue_ne_nil v⟩
  · rw [if_neg hw, List.singleton_append, List.take_succ_cons, List.append_cons,
      leadCount_append_of_not_startsLine _ _ (hrun k), leadCount_append_separator]
    rw [startsLine_concat]
    decide

theorem leadCount_append_encodeNext (hstart : written = 0 ↔ StartsLine text) (v : Int64) :
    leadCount (text ++ encodeNext written v) = leadCount text + 1 := by
  have hwhole := leadCount_append_take hstart v (List.length_pos_iff.2 (encodeNext_ne_nil written v))
  rw [List.take_length] at hwhole
  exact hwhole

/-! ## Rows that are cut off -/

namespace Transcript

variable {m : Medium} {limit : Nat} {σ : Type} [Source σ]

/-- The rest of a row has drawn the values that are led in what there is room for and in one octet
more: a value is drawn before its first octet is offered. -/
theorem continueRow_drawn (hm : m.chunk ≠ some 0) (hl : m.limit = some limit) (remaining : Nat) :
    ∀ (written : Nat) (t : Transcript) (octets : List UInt8) (source : σ),
      t.sink.Offered m octets → octets.length ≤ limit → (written = 0 ↔ StartsLine octets) →
      let rest := encodeRemaining written (Source.take remaining source).1 ++ [terminator]
      leadCount octets + (continueRow written remaining t source).drawn =
        leadCount ((octets ++ rest).take (limit + 1)) + written := by
  induction remaining with
  | zero =>
    intro written t octets source h hle hstart rest
    have hrest : rest = [terminator] := by
      simp only [rest, Source.take_zero, encodeRemaining_nil, List.nil_append]
    have hlength : (octets ++ [terminator]).length ≤ limit + 1 := by
      rw [List.length_append, List.length_singleton]
      omega
    rw [continueRow_zero, hrest, List.take_of_length_le hlength, leadCount_append_terminator]
  | succ remaining ih =>
    intro written t octets source h hle hstart rest
    have hrest : rest = encodeNext written (Source.draw source).1 ++
        (encodeRemaining (written + 1) (Source.take remaining (Source.draw source).2).1 ++
          [terminator]) := by
      simp only [rest, Source.take_succ, encodeRemaining_cons, List.append_assoc]
    rw [hrest, ← List.append_assoc]
    rcases continueRow_succ_offered h hm written remaining source with
      ⟨hroom, t', hoffers, heq⟩ | ⟨hroom, t', hoffers, heq⟩
    · -- the value is stored, and the row goes on behind it
      have hwhole := leadCount_append_encodeNext hstart (Source.draw source).1
      have hnext := ih (written + 1) t' (octets ++ encodeNext written (Source.draw source).1)
        (Source.draw source).2 hoffers.offered ((Medium.hasRoom_iff_of_limit hl).1 hroom)
        (iff_of_false (Nat.succ_ne_zero written)
          (not_startsLine_append_encodeNext written _ octets))
      rw [heq]
      omega
    · -- the value is cut off, and nothing behind it is offered
      have hfull : limit < octets.length + (encodeNext written (Source.draw source).1).length := by
        rw [Medium.hasRoom_iff_of_limit hl, Nat.not_le, List.length_append] at hroom
        exact hroom
      have htake : (octets ++ encodeNext written (Source.draw source).1).take (limit + 1) =
          octets ++ (encodeNext written (Source.draw source).1).take
            (limit + 1 - octets.length) := by
        rw [List.take_append, List.take_of_length_le (by omega)]
      rw [heq, List.take_append_of_le_length (by rw [List.length_append]; omega), htake,
        leadCount_append_take hstart _ (by omega), Nat.add_assoc, Nat.add_comm 1 written]

end Transcript

end PartyInputs
