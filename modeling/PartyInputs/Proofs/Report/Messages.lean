import Mathlib.Algebra.Ring.Int.Defs
import PartyInputs.Proofs.Request.Conditions
import PartyInputs.Proofs.Text.Sentence
import PartyInputs.Table.Reading

/-!
# What messages tell

A refusal and a fault of a file are shown as sentences, with numbers and with text from outside in
them: file names and tokens, which may hold quotes, line ends or words of the sentence itself. Still
no two of them read the same, and none takes more than one line.

* `Refusal.sentence`, `ReadFault.sentence`: the pieces of a message.
* `Refusal.wording`, `ReadFault.wording`: **their forms are told by the words that they start with**.
* `messages_tell`: **messages tell what they are about**, on one line.
-/

namespace PartyInputs

open Text (Sentence Wording OnOneLine)

/-! ## Refusals -/

namespace Refusal

/-- The pieces of the message. -/
def sentence : Refusal → Sentence
  | bitsOutOfBounds bits least greatest =>
    [.words "bits must be between ", .number least, .words " and ", .number greatest,
      .words " for practical decimal I/O sizes (got ", .number bits.toInt, .words ")"]
  | notPositive name value =>
    [.words name, .words " must be positive (got ", .number value.toInt, .words ")"]
  | notAddressable name value =>
    [.words name, .words "=", .number value.toInt,
      .words " does not fit in memory addressing on this platform"]
  | kernelTooLarge kernel rows cols =>
    [.words "W_DIM=", .number kernel, .words " must be <= A_ROWS=", .number rows,
      .words " and <= A_COLS=", .number cols, .words " (valid conv)"]
  | nameMissing party => [.words "no output file name given for party ", .number party]
  | nameEmpty party =>
    [.words "output file name for party ", .number party, .words " is empty"]
  | nameNotPlain party name =>
    [.words "output file name ", .quoted name, .words " for party ", .number party,
      .words " must be a plain name inside the output directory"]
  | nameShared name => [.words "party 0 and party 1 would both write to ", .quoted name]

theorem toList_message (e : Refusal) : e.message.toList = Sentence.text e.sentence := by
  -- the equations of `message` would compute with its words
  delta message
  cases e <;>
    simp [sentence, Sentence.text, Text.Piece.text, Text.Decimal.ofNat, Text.Decimal.ofInt64,
      Text.Decimal.ofInt, Text.Decimal.numeral]

/-- The pieces say which refusal it is. -/
theorem sentence_injective : Function.Injective sentence := by
  intro e e' h
  -- two of different kinds differ in their words, two of one kind in what is filled in
  cases e <;> cases e' <;> simp_all [sentence, Int64.toInt_inj]

/-- The forms of the messages of refusals that a request can meet with. -/
def forms : List Sentence :=
  ([bitsOutOfBounds 0 0 0, kernelTooLarge 0 0 0, nameMissing 0, nameEmpty 0, nameNotPlain 0 "",
    nameShared ""] ++ Sizes.names.map (notPositive · 0)).map fun e => Sentence.form e.sentence

theorem form_sentence_mem {e : Refusal} (h : e.IsGiven) : Sentence.form e.sentence ∈ forms := by
  cases e with
  | notPositive name value =>
    apply List.mem_map.2
    exact ⟨notPositive name 0, List.mem_append_right _ (List.mem_map_of_mem h), rfl⟩
  | notAddressable => exact h.elim
  | _ => simp [forms, sentence, Sentence.form, Text.Piece.form]

/-- **Refusals in words.** The forms are told by the words that they start with. -/
def wording : Wording Refusal where
  message
  sentence
  Given := IsGiven
  forms
  toList_message
  sentence_injective
  form_mem _ := form_sentence_mem
  told.apart := by decide +kernel
  told.parted := by decide +kernel
  told.onOneLine := by decide +kernel

end Refusal

/-- What planning refuses with is one of these refusals. -/
theorem Request.isGiven_of_plan {r : Request} {e : Refusal} (h : r.plan = .error e) : e.IsGiven :=
  isGiven_of_firstBroken ((r.decides_plan e).1 h)

/-! ## Faults -/

namespace ReadFault

/-- The pieces of the message. -/
def sentence : ReadFault → Sentence
  | notUtf8 offset => [.words "input is not valid UTF-8 at byte offset ", .number offset]
  | notInteger line token =>
    [.words "line ", .number line, .words ": token ", .quoted token,
      .words " is not a decimal integer"]

theorem toList_message (f : ReadFault) : f.message.toList = Sentence.text f.sentence := by
  delta message
  cases f <;>
    simp [sentence, Sentence.text, Text.Piece.text, Text.Decimal.ofNat,
      Text.Decimal.numeral]

theorem sentence_injective : Function.Injective sentence := by
  intro f f' h
  cases f <;> cases f' <;> simp_all [sentence]

/-- The forms of the messages. -/
def forms : List Sentence :=
  [notUtf8 0, notInteger 0 ""].map fun f => Sentence.form f.sentence

theorem form_sentence_mem (f : ReadFault) : Sentence.form f.sentence ∈ forms := by
  cases f <;> simp [forms, sentence, Sentence.form, Text.Piece.form]

/-- **Faults in words.** -/
def wording : Wording ReadFault where
  message
  sentence
  Given _ := True
  forms
  toList_message
  sentence_injective
  form_mem f _ := form_sentence_mem f
  told.apart := by decide +kernel
  told.parted := by decide +kernel
  told.onOneLine := by decide +kernel

end ReadFault

/-! ## What is shown -/

/-- **Messages tell what they are about.** Two requests that are refused are refused for the same
reason, in every detail, iff the messages are the same, and so it is with files that cannot be read.
Whatever the names and tokens are that a message quotes, it stays on one line. -/
theorem messages_tell :
    (∀ (r r' : Request) (e e' : Refusal), r.plan = .error e → r'.plan = .error e' →
      (e.message = e'.message ↔ e = e') ∧ OnOneLine e.message.toList) ∧
    (∀ (octets octets' : List UInt8) (f f' : ReadFault), Table.read octets = .error f →
      Table.read octets' = .error f' →
      (f.message = f'.message ↔ f = f') ∧ OnOneLine f.message.toList) := by
  constructor
  · intro r r' e e' h h'
    have hgiven := Request.isGiven_of_plan h
    exact ⟨Refusal.wording.message_inj hgiven (Request.isGiven_of_plan h'),
      Refusal.wording.onOneLine_message hgiven⟩
  · intro octets octets' f f' _ _
    exact ⟨ReadFault.wording.message_inj trivial trivial,
      ReadFault.wording.onOneLine_message trivial⟩

/-- A file name that imitates the message behind it and one with a line end, a token with a bell and
one that is a quote. -/
theorem messages_tell_imitated :
    let r : Request :=
      { sizes := .signTest 5, destination := { first := "a\" for party 0 must be /\"" } }
    let r' : Request := { sizes := .signTest 5, destination := { first := "a/\n" } }
    let e : Refusal := .nameNotPlain 0 "a\" for party 0 must be /\""
    let e' : Refusal := .nameNotPlain 0 "a/\n"
    let f : ReadFault := .notInteger 2 "2\x07"
    let f' : ReadFault := .notInteger 1 "\""
    (r.plan = .error e ∧ r'.plan = .error e' ∧ e.message ≠ e'.message ∧
      OnOneLine e.message.toList) ∧
    Table.read [0x31, 0x0a, 0x32, 0x07] = .error f ∧ Table.read [0x22] = .error f' ∧
      f.message ≠ f'.message ∧ OnOneLine f.message.toList := by
  intro r r' e e' f f'
  have hplan : r.plan = .error e := by decide
  have hplan' : r'.plan = .error e' := by decide
  have hread : Table.read [0x31, 0x0a, 0x32, 0x07] = .error f := by decide +kernel
  have hread' : Table.read [0x22] = .error f' := by decide +kernel
  obtain ⟨hmessage, hline⟩ := messages_tell.1 r r' e e' hplan hplan'
  obtain ⟨hmessage', hline'⟩ := messages_tell.2 _ _ f f' hread hread'
  have he : e ≠ e' := by decide
  have hf : f ≠ f' := by decide
  exact ⟨⟨hplan, hplan', hmessage.not.2 he, hline⟩, hread, hread', hmessage'.not.2 hf, hline'⟩

end PartyInputs
