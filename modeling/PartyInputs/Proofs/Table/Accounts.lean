import Mathlib.Algebra.GroupWithZero.Nat
import PartyInputs.Proofs.Table.Attempts
import PartyInputs.Proofs.Text.Numeral

/-!
# What a transcript counts

A row goes to the sink in pieces. Octets are counted piece by piece, rows and values only when the
row has ended, and a row that fails stays on the count with the pieces that were stored as a whole.
What keeps the counters true through any number of failures is that a sink that has failed is stuck:
from then on nothing is stored and nothing is counted.

* `Piece`, `Piece.ofRow`: **the pieces of a row**.
* `Transcript.continueRow_refused`: a row that fails is given up at one of its pieces.
* `Call`, `Call.Gives`: what a call for a row can do.
* `Transcript.writeEach_calls`: calls one after the other, by induction on the rows.
* `Transcript.writeEach_accounts`: **the counters after each call**.
-/

namespace PartyInputs

/-! ## Pieces -/

/-- What is offered to a sink at one go when rows are written. -/
inductive Piece where
  | value (v : Int64)
  | separator
  | lineEnd
  deriving DecidableEq

namespace Piece

/-- The octets of a piece. -/
def octets : Piece → List UInt8
  | value v => encodeValue v
  | separator => [PartyInputs.separator]
  | lineEnd => [terminator]

/-- Whether the piece is a value. -/
def isValue : Piece → Bool
  | value _ => true
  | _ => false

/-- The pieces of a row: its values with separators between them, and the line end. -/
def ofRow (values : List Int64) : List Piece :=
  (values.map value).intersperse separator ++ [lineEnd]

/-- The pieces of a row behind a value of it. -/
def furtherOf (values : List Int64) : List Piece :=
  (values.flatMap fun v => [separator, value v]) ++ [lineEnd]

/-- What is still to be offered of a row in which `written` values stand already. -/
def remaining (written : Nat) (values : List Int64) : List Piece :=
  if written = 0 then ofRow values else furtherOf values

theorem octets_ne_nil (p : Piece) : p.octets ≠ [] := by
  cases p with
  | value v => exact Transcript.encodeValue_ne_nil v
  | separator => exact List.cons_ne_nil _ _
  | lineEnd => exact List.cons_ne_nil _ _

/-- The numeral of a 64-bit integer has at most twenty characters: nineteen digits and a sign. -/
theorem length_encodeValue_le (v : Int64) : (encodeValue v).length ≤ 20 := by
  have hlo := v.le_toInt
  have hhi := v.toInt_lt
  unfold encodeValue
  rcases hi : v.toInt with n | n
  · rw [hi, Int.ofNat_eq_natCast] at hhi
    have hlength := Text.Decimal.length_encode_digits_le (n := n) (k := 19) (by decide) (by omega)
    exact Nat.le_trans hlength (by decide)
  · rw [hi] at hlo
    have hlength :=
      Text.Decimal.length_encode_digits_le (n := n + 1) (k := 19) (by decide) (by omega)
    rw [Text.Decimal.numeral, Text.Decimal.encode_minus_cons, List.length_cons]
    exact Nat.succ_le_succ hlength

theorem length_octets_le (p : Piece) : p.octets.length ≤ 20 := by
  cases p with
  | value v => exact length_encodeValue_le v
  | separator => decide
  | lineEnd => decide

theorem ofRow_cons (v : Int64) (vs : List Int64) : ofRow (v :: vs) = value v :: furtherOf vs := by
  induction vs generalizing v with
  | nil => rfl
  | cons w ws ih =>
    have hrow : ofRow (v :: w :: ws) = value v :: separator :: ofRow (w :: ws) := rfl
    rw [hrow, ih w]
    rfl

theorem remaining_nil (written : Nat) : remaining written [] = [lineEnd] := by
  unfold remaining
  split <;> rfl

/-- A separator stands in front of a value unless the value is the first one. -/
theorem remaining_cons (written : Nat) (v : Int64) (vs : List Int64) :
    remaining written (v :: vs) =
      (if written = 0 then [] else [separator]) ++ value v :: remaining (written + 1) vs := by
  unfold remaining
  by_cases h : written = 0
  · simp [h, ofRow_cons]
  · simp [h, furtherOf]

/-- The octets of the pieces of a row are the octets of the row. -/
theorem flatMap_octets_ofRow (values : List Int64) :
    (ofRow values).flatMap octets = encodeRow values := by
  have hfurther : ∀ vs : List Int64,
      (furtherOf vs).flatMap octets = encodeFurther vs ++ [terminator] := by
    intro vs
    rw [furtherOf, List.flatMap_append, List.flatMap_assoc, encodeFurther]
    simp [octets]
  cases values with
  | nil => rfl
  | cons v vs =>
    rw [ofRow_cons, List.flatMap_cons, hfurther, encodeRow, encodeValues_cons, List.append_assoc]
    rfl

end Piece

namespace Transcript

/-! ## Pieces that fail -/

/-- `t'` is what `t` becomes when the sink takes the pieces of `accepted` and then fails at `piece`,
of which it stores `part` only. -/
structure Refuses (t : Transcript) (accepted : List Piece) (piece : Piece) (part : List UInt8)
    (t' : Transcript) : Prop where
  sink : t.sink.Gains (accepted.flatMap Piece.octets ++ part) t'.sink
  tally : t'.tally = t.tally.addOctets (accepted.flatMap Piece.octets).length
  stuck : t'.sink.Stuck
  isPrefix : part <+: piece.octets
  lt : part.length < piece.octets.length

/-- Pieces that were stored before a failure come in front of those that it found stored. -/
theorem Holds.refuses {t t₁ t' : Transcript} {front accepted : List Piece} {piece : Piece}
    {part : List UInt8} (h : t.Holds (front.flatMap Piece.octets) t₁)
    (h' : t₁.Refuses accepted piece part t') : t.Refuses (front ++ accepted) piece part t' := by
  refine ⟨?_, ?_, h'.stuck, h'.isPrefix, h'.lt⟩
  · rw [List.flatMap_append, List.append_assoc]
    exact h.sink.trans h'.sink
  · rw [h'.tally, h.tally, List.flatMap_append, List.length_append]
    simp only [Tally.addOctets, Nat.add_assoc]

/-- A piece is stored as a whole and counted, or it is refused. -/
theorem put_refused_cases (t : Transcript) (piece : Piece) :
    (∃ t', t.put piece.octets = (.ok (), t') ∧ t.Holds piece.octets t') ∨
      ∃ fault t' part, t.put piece.octets = (.error fault, t') ∧ t.Refuses [] piece part t' := by
  unfold put
  rcases t.sink.put_stops piece.octets with
    ⟨s', hput, hg⟩ | ⟨fault, s', part, hput, hg, hstuck, hpre, hlt⟩
  · exact .inl ⟨⟨s', t.tally.addOctets piece.octets.length⟩, by rw [hput]; rfl, hg, rfl⟩
  · exact .inr ⟨fault, { t with sink := s' }, part, by rw [hput], hg, rfl, hstuck, hpre, hlt⟩

theorem putSeparator_refused_cases (t : Transcript) (written : Nat) :
    (∃ t', t.putSeparator written = (.ok (), t') ∧
        t.Holds ((if written = 0 then [] else [Piece.separator]).flatMap Piece.octets) t') ∨
      (written ≠ 0 ∧ ∃ fault t' part, t.putSeparator written = (.error fault, t') ∧
        t.Refuses [] .separator part t') := by
  unfold putSeparator
  by_cases h : written = 0
  · simp only [h, if_true]
    exact .inl ⟨t, rfl, .refl t⟩
  · simp only [h, if_false]
    rcases t.put_refused_cases .separator with hok | hrefused
    · exact .inl hok
    · exact .inr ⟨h, hrefused⟩

/-! ## Rows that fail -/

variable {σ : Type} [Source σ]

/-- How many values are drawn for a row that is given up at `piece`: all of them at the line end,
and otherwise one more than the pieces in front hold, since a value is drawn before its separator is
written. -/
def drawnAt (count : Nat) (accepted : List Piece) (piece : Piece) : Nat :=
  if piece = .lineEnd then count else accepted.countP Piece.isValue + 1

/-- A value that was stored behind its separator was drawn. -/
theorem drawnAt_stored (written count : Nat) (v : Int64) (accepted : List Piece) (piece : Piece) :
    drawnAt (count + 1) ((if written = 0 then [] else [.separator]) ++ [.value v] ++ accepted)
      piece = drawnAt count accepted piece + 1 := by
  have hfront : ((if written = 0 then [] else [Piece.separator]) ++ [Piece.value v]).countP
      Piece.isValue = 1 := by
    split <;> rfl
  unfold drawnAt
  rw [List.countP_append, hfront]
  split <;> omega

/-- One more value of a row with the separator in front of it: both are stored and the row goes on
behind them, or it is given up at one of them. -/
theorem continueRow_succ_refused_cases (written remaining : Nat) (t : Transcript) (source : σ) :
    let pieces := (if written = 0 then [] else [Piece.separator]) ++ [.value (Source.draw source).1]
    (∃ t', t.Holds (pieces.flatMap Piece.octets) t' ∧
        continueRow written (remaining + 1) t source =
          continueRow (written + 1) remaining t' (Source.draw source).2) ∨
      ∃ fault accepted piece behind part t', pieces = accepted ++ piece :: behind ∧
        accepted.countP Piece.isValue = 0 ∧ piece ≠ .lineEnd ∧ t.Refuses accepted piece part t' ∧
        continueRow written (remaining + 1) t source =
          ⟨.error fault, written + 1, t', (Source.draw source).2⟩ := by
  intro pieces
  rw [continueRow_succ]
  rcases t.putSeparator_refused_cases written with
    ⟨t₁, hput₁, hh₁⟩ | ⟨hw, fault, t₁, part, hput₁, hr⟩
  · rw [hput₁]
    rcases t₁.put_refused_cases (.value (Source.draw source).1) with
      ⟨t₂, hput₂, hh₂⟩ | ⟨fault, t₂, part, hput₂, hr⟩
    · simp only [Piece.octets] at hput₂
      refine .inl ⟨t₂, ?_, by simp only [hput₂]⟩
      rw [List.flatMap_append, List.flatMap_singleton]
      exact hh₁.trans hh₂
    · simp only [Piece.octets] at hput₂
      have hr' := hh₁.refuses hr
      rw [List.append_nil] at hr'
      refine .inr ⟨fault, _, _, [], part, t₂, rfl, ?_, nofun, hr', by simp only [hput₂]⟩
      split <;> rfl
  · refine .inr ⟨fault, [], .separator, [.value (Source.draw source).1], part, t₁, ?_, rfl, nofun,
      hr, by rw [hput₁]⟩
    simp only [pieces, if_neg hw]
    rfl

/-- The rest of a row ends well, or it is given up at one of its pieces. -/
theorem continueRow_refused (remaining : Nat) : ∀ (written : Nat) (t : Transcript) (source : σ),
    let outcome := continueRow written remaining t source
    (∃ count, outcome.result = .ok count) ∨
      ∃ fault accepted piece behind part, outcome.result = .error fault ∧
        Piece.remaining written (Source.take remaining source).1 = accepted ++ piece :: behind ∧
        outcome.drawn = written + drawnAt remaining accepted piece ∧
        t.Refuses accepted piece part outcome.transcript := by
  induction remaining with
  | zero =>
    intro written t source
    rw [continueRow_zero, Source.take_zero, Piece.remaining_nil]
    rcases t.put_refused_cases .lineEnd with ⟨t', hput, -⟩ | ⟨fault, t', part, hput, hr⟩
    · simp only [Piece.octets] at hput
      exact .inl ⟨written, by simp only [endRow, hput]⟩
    · simp only [Piece.octets] at hput
      simp only [endRow, hput]
      exact .inr ⟨fault, [], .lineEnd, [], part, rfl, rfl, rfl, hr⟩
  | succ remaining ih =>
    intro written t source
    rw [Source.take_succ, Piece.remaining_cons]
    rcases continueRow_succ_refused_cases written remaining t source with
      ⟨t₁, hh, heq⟩ | ⟨fault, accepted, piece, behind, part, t₁, hpieces, hcount, hne, hr, heq⟩
    · rw [heq]
      rcases ih (written + 1) t₁ (Source.draw source).2 with
        hok | ⟨fault, accepted, piece, behind, part, hresult, hpieces, hdrawn, hr⟩
      · exact .inl hok
      · refine .inr ⟨fault, _, piece, behind, part, hresult, ?_, ?_, hh.refuses hr⟩
        · rw [hpieces, List.append_assoc, List.append_assoc]
          rfl
        · rw [hdrawn, drawnAt_stored]
          omega
    · rw [heq]
      generalize (Source.take remaining (Source.draw source).2).1 = values
      refine .inr ⟨fault, accepted, piece, behind ++ Piece.remaining (written + 1) values, part,
        rfl, ?_, ?_, hr⟩
      · rw [List.append_cons, hpieces, List.append_assoc]
        rfl
      · rw [drawnAt, if_neg hne, hcount]

/-! ## Calls -/

/-- Nothing is stored for a row by a sink that is stuck. -/
theorem octets_writeRow_of_stuck {t : Transcript} (h : t.sink.Stuck) (count : Nat) (source : σ) :
    (t.writeRow count source).transcript.sink.octets = t.sink.octets := by
  have hput : ∀ piece : Piece, ∃ fault t', t.put piece.octets = (.error fault, t') ∧
      t'.sink.octets = t.sink.octets := by
    intro piece
    have hoctets := Sink.octets_put_of_stuck h piece.octets
    unfold put
    rcases t.sink.put_stops piece.octets with ⟨s', hput, hg⟩ | ⟨fault, s', part, hput, -⟩
    · -- what is stored as a whole is not empty
      rw [hput, hg.octets] at hoctets
      exact absurd (List.append_right_eq_self.1 hoctets) piece.octets_ne_nil
    · rw [hput] at hoctets
      exact ⟨fault, { t with sink := s' }, by rw [hput], hoctets⟩
  unfold writeRow
  cases count with
  | zero =>
    obtain ⟨fault, t', hend, hoctets⟩ := hput .lineEnd
    simp only [Piece.octets] at hend
    simp only [continueRow_zero, endRow, hend]
    exact hoctets
  | succ count =>
    obtain ⟨fault, t', hvalue, hoctets⟩ := hput (.value (Source.draw source).1)
    simp only [Piece.octets] at hvalue
    simp only [continueRow_succ, putSeparator, if_true, hvalue]
    exact hoctets

end Transcript

/-- A call for a row. -/
structure Call where
  row : List Int64
  /-- The pieces that the sink took as a whole. -/
  accepted : List Piece
  /-- The piece at which the call failed; `none` if it did not. -/
  refused : Option Piece

namespace Call

/-- What becomes of a call: the sink takes the pieces of the row in order, all of them or those in
front of one that it refuses. The values that were drawn are gone from the source. -/
inductive Gives : Call → RowOutcome (List Int64) → Prop where
  | ended {row : List Int64} {t : Transcript} :
      Gives ⟨row, Piece.ofRow row, none⟩ ⟨.ok row.length, row.length, t, row.drop row.length⟩
  | refused {row : List Int64} {accepted behind : List Piece} {piece : Piece} {fault : Fault}
      {drawn : Nat} {t : Transcript} :
      Piece.ofRow row = accepted ++ piece :: behind →
      drawn = Transcript.drawnAt row.length accepted piece →
      Gives ⟨row, accepted, some piece⟩ ⟨.error fault, drawn, t, row.drop drawn⟩

/-- The octets of all pieces that were taken as a whole. -/
def octets (calls : List Call) : List UInt8 := (calls.flatMap accepted).flatMap Piece.octets

theorem octets_cons (call : Call) (calls : List Call) :
    octets (call :: calls) = call.accepted.flatMap Piece.octets ++ octets calls := by
  simp [octets]

/-- Calls that store no piece store none at any time. -/
theorem octets_take_of_octets {calls : List Call} (h : octets calls = []) (n : Nat) :
    octets (calls.take n) = [] := by
  have happend : octets calls = octets (calls.take n) ++ octets (calls.drop n) := by
    rw [octets, octets, octets, ← List.flatMap_append, ← List.flatMap_append,
      List.take_append_drop]
  rw [h] at happend
  exact (List.append_eq_nil_iff.1 happend.symm).1

/-- What is stored besides whole pieces if the first piece that was refused left `part` behind. -/
def remainder (calls : List Call) (part : List UInt8) : List UInt8 :=
  if calls.all (·.refused.isNone) then [] else part

end Call

namespace Transcript

/-- The numbers of values that calls returned. -/
def returned (outcomes : List (RowOutcome (List Int64))) : List Nat :=
  outcomes.filterMap (·.result.toOption)

/-- The counters and the sink of `t` are those of `start` after the calls: octets count for the
pieces that were taken as a whole, rows and values for what was returned. -/
structure Accounts (start : Transcript) (calls : List Call) (part : List UInt8)
    (outcomes : List (RowOutcome (List Int64))) (t : Transcript) : Prop where
  rows : t.tally.rows = start.tally.rows + (returned outcomes).length
  values : t.tally.values = start.tally.values + (returned outcomes).sum
  octets : t.tally.octets = start.tally.octets + (Call.octets calls).length
  stored : t.sink.octets = start.sink.octets ++ Call.octets calls ++ Call.remainder calls part

namespace Accounts

variable {start t₁ t : Transcript} {calls : List Call} {part : List UInt8}
  {outcomes : List (RowOutcome (List Int64))}

theorem refl (start : Transcript) (part : List UInt8) : Accounts start [] part [] start :=
  ⟨rfl, rfl, rfl, by simp [Call.octets, Call.remainder]⟩

/-- A row that ended comes in front of the calls behind it. -/
theorem cons_ended {row source : List Int64} {t' : Transcript} (h : start.Gains [row] t₁)
    (h' : Accounts t₁ calls part outcomes t) :
    Accounts start (⟨row, Piece.ofRow row, none⟩ :: calls) part
      (⟨.ok row.length, row.length, t', source⟩ :: outcomes) t := by
  have hoctets : Call.octets (⟨row, Piece.ofRow row, none⟩ :: calls) =
      encodeRows [row] ++ Call.octets calls := by
    rw [Call.octets_cons, Piece.flatMap_octets_ofRow, encodeRows, List.flatMap_singleton]
  have hreturned : returned (⟨.ok row.length, row.length, t', source⟩ :: outcomes) =
      row.length :: returned outcomes := rfl
  refine ⟨?_, ?_, ?_, ?_⟩
  · rw [h'.rows, h.tally, hreturned, List.length_cons]
    simp only [Tally.addRows, List.length_singleton]
    omega
  · rw [h'.values, h.tally, hreturned, List.sum_cons]
    simp only [Tally.addRows, List.flatten_singleton, Nat.add_assoc]
  · rw [h'.octets, h.tally, hoctets, List.length_append]
    simp only [Tally.addRows, Nat.add_assoc]
  · rw [h'.stored, h.sink.octets, hoctets]
    simp [Call.remainder]

/-- A row that was refused comes in front of calls that store nothing. -/
theorem cons_refused {row source : List Int64} {accepted : List Piece} {piece : Piece}
    {fault : Fault} {drawn : Nat} {t' : Transcript} (h : start.Refuses accepted piece part t₁)
    (h' : Accounts t₁ calls [] outcomes t) (hnil : Call.octets calls = []) :
    Accounts start (⟨row, accepted, some piece⟩ :: calls) part
      (⟨.error fault, drawn, t', source⟩ :: outcomes) t := by
  have hoctets : Call.octets (⟨row, accepted, some piece⟩ :: calls) =
      accepted.flatMap Piece.octets := by
    rw [Call.octets_cons, hnil, List.append_nil]
  have hreturned : returned (⟨.error fault, drawn, t', source⟩ :: outcomes) =
      returned outcomes := rfl
  refine ⟨?_, ?_, ?_, ?_⟩
  · rw [h'.rows, h.tally, hreturned]
    rfl
  · rw [h'.values, h.tally, hreturned]
    rfl
  · rw [h'.octets, h.tally, hoctets, hnil]
    rfl
  · have hrest : Call.remainder calls [] = [] := ite_self []
    rw [h'.stored, h.sink.octets, hoctets, hnil, hrest]
    simp [Call.remainder]

end Accounts

/-- A call ends its row, or it is refused at one of the pieces of the row. -/
theorem writeValues_cases (t : Transcript) (row : List Int64) :
    (∃ t', t.writeValues row = ⟨.ok row.length, row.length, t', row.drop row.length⟩ ∧
        t.Gains [row] t') ∨
      ∃ fault accepted piece behind part drawn t', Piece.ofRow row = accepted ++ piece :: behind ∧
        drawn = drawnAt row.length accepted piece ∧ t.Refuses accepted piece part t' ∧
        t.writeValues row = ⟨.error fault, drawn, t', row.drop drawn⟩ := by
  have htake : Source.take row.length row = (row, []) := Source.take_length_list row
  rcases t.writeRow_cases row.length row with ⟨-, fault, hfault⟩ | ⟨t', hrow, hg⟩
  · -- a row that fails is given up at one of its pieces, and its source is known by counting
    have hrefused := continueRow_refused row.length 0 t row
    rw [htake] at hrefused
    rcases hrefused with
      ⟨count, hok⟩ | ⟨fault', accepted, piece, behind, part, hresult, hpieces, hdrawn, hr⟩
    · cases hfault.symm.trans hok
    · rw [Nat.zero_add] at hdrawn
      have hsource : (t.writeValues row).source = row.drop (t.writeValues row).drawn := by
        obtain ⟨n, -, hn, hsource⟩ := continueRow_source row.length 0 t row
        rw [Nat.zero_add] at hn
        rw [Source.take_list_snd, ← hn] at hsource
        exact hsource
      refine .inr ⟨fault', accepted, piece, behind, part, (t.writeValues row).drawn,
        (t.writeValues row).transcript, hpieces, hdrawn, hr, ?_⟩
      rw [← hsource, ← hresult]
      rfl
  · rw [htake] at hrow hg
    refine .inl ⟨t', ?_, hg⟩
    rw [List.drop_length]
    exact hrow

/-- **Calls one after the other**, by induction on the rows. The invariant is the last part: once a
piece was refused, the sink is stuck, so the calls behind it store nothing and only the first part
of a piece that was ever left behind counts. -/
theorem writeEach_calls (rows : List (List Int64)) : ∀ t : Transcript,
    ∃ (calls : List Call) (part : List UInt8),
      calls.map Call.row = rows ∧ List.Forall₂ Call.Gives calls (t.writeEach rows).1 ∧
      (∀ n, Accounts t (calls.take n) part ((t.writeEach rows).1.take n)
        (t.writeEach (rows.take n)).2) ∧
      (∀ piece, (calls.filterMap Call.refused).head? = some piece →
        part <+: piece.octets ∧ part.length < piece.octets.length) ∧
      (t.sink.Stuck → Call.octets calls = [] ∧ part = []) := by
  induction rows with
  | nil =>
    intro t
    refine ⟨[], [], rfl, .nil, ?_, nofun, fun _ => ⟨rfl, rfl⟩⟩
    intro n
    rw [List.take_nil, List.take_nil, show (t.writeEach []).1.take n = [] from List.take_nil]
    exact .refl t []
  | cons row rows ih =>
    intro t
    have hstay : t.sink.Stuck → (t.writeValues row).transcript.sink.octets = t.sink.octets :=
      fun hstuck => octets_writeRow_of_stuck hstuck row.length row
    rcases t.writeValues_cases row with
      ⟨t₁, hrow, hg⟩ | ⟨fault, accepted, piece, behind, part, drawn, t₁, hpieces, hdrawn, hr, hrow⟩
    · obtain ⟨calls, part, hrows, hgives, haccounts, hpart, -⟩ := ih t₁
      rw [hrow] at hstay
      simp only [writeEach_cons, hrow]
      refine ⟨⟨row, Piece.ofRow row, none⟩ :: calls, part, ?_, .cons .ended hgives, ?_, hpart, ?_⟩
      · rw [List.map_cons, hrows]
      · intro n
        cases n with
        | zero => exact .refl t part
        | succ n =>
          simp only [List.take_succ_cons, writeEach_cons, hrow]
          exact .cons_ended hg (haccounts n)
      · -- a sink that is stuck ends no row
        intro hstuck
        have hoctets := hstay hstuck
        rw [hg.sink.octets] at hoctets
        have hnil := List.append_right_eq_self.1 hoctets
        simp [encodeRows, encodeRow] at hnil
    · -- from here on the sink is stuck
      obtain ⟨calls, part', hrows, hgives, haccounts, -, hstuck⟩ := ih t₁
      obtain ⟨hnil, rfl⟩ := hstuck hr.stuck
      rw [hrow] at hstay
      simp only [writeEach_cons, hrow]
      refine ⟨⟨row, accepted, some piece⟩ :: calls, part, ?_,
        .cons (.refused hpieces hdrawn) hgives, ?_, ?_, ?_⟩
      · rw [List.map_cons, hrows]
      · intro n
        cases n with
        | zero => exact .refl t part
        | succ n =>
          simp only [List.take_succ_cons, writeEach_cons, hrow]
          exact .cons_refused hr (haccounts n) (Call.octets_take_of_octets hnil n)
      · intro piece' hpiece'
        cases hpiece'
        exact ⟨hr.isPrefix, hr.lt⟩
      · intro hstuck
        have hoctets := hstay hstuck
        rw [hr.sink.octets] at hoctets
        obtain ⟨haccepted, hpart⟩ :=
          List.append_eq_nil_iff.1 (List.append_right_eq_self.1 hoctets)
        rw [Call.octets_cons, haccepted, hnil]
        exact ⟨rfl, hpart⟩

/-- **The counters after each call.** Rows are tried one after the other on any sink: with any limit
and any chunks, empty ones too, however it fails when it is full and whether it can be flushed or
not. After `n` of the calls the transcript has counted a row for each call that ended well, the
values that these calls returned, and the octets of all pieces that were taken as a whole. These
pieces stand in the sink, and behind them, once a call has failed, a remainder that stays what it
is: the part of the first refused piece that was stored, which is less than the piece. -/
theorem writeEach_accounts (sink : Sink) (rows : List (List Int64)) :
    let outcomes := (writeEach { sink } rows).1
    ∃ (calls : List Call) (part : List UInt8),
      calls.map Call.row = rows ∧ List.Forall₂ Call.Gives calls outcomes ∧
      (∀ n,
        let t := (writeEach { sink } (rows.take n)).2
        let counts := returned (outcomes.take n)
        let whole := Call.octets (calls.take n)
        let remainder := Call.remainder (calls.take n) part
        t.tally = ⟨counts.length, counts.sum, whole.length⟩ ∧
          t.sink.octets = sink.octets ++ whole ++ remainder ∧
          t.sink.octets.length = sink.octets.length + t.tally.octets + remainder.length) ∧
      (∀ piece, (calls.filterMap Call.refused).head? = some piece →
        part <+: piece.octets ∧ part.length < piece.octets.length ∧ part.length ≤ 19) := by
  intro outcomes
  obtain ⟨calls, part, hrows, hgives, haccounts, hpart, -⟩ := writeEach_calls rows { sink }
  refine ⟨calls, part, hrows, hgives, ?_, ?_⟩
  · intro n t counts whole remainder
    obtain ⟨hcalls, hvalues, hoctets, hstored⟩ := haccounts n
    have htally : t.tally = ⟨counts.length, counts.sum, whole.length⟩ := by
      rw [Nat.zero_add] at hcalls hvalues hoctets
      rw [← hcalls, ← hvalues, ← hoctets]
    refine ⟨htally, hstored, ?_⟩
    rw [htally, hstored, List.length_append, List.length_append]
  · intro piece hpiece
    obtain ⟨hfront, hlt⟩ := hpart piece hpiece
    have hle := piece.length_octets_le
    exact ⟨hfront, hlt, by omega⟩

/-- Room for ten octets in pairs, every third call interrupted. The first row is stored; the second
one is refused at its second value, of which two octets of three are stored; then nothing is. -/
theorem writeEach_accounts_ten :
    let sink : Sink :=
      { medium := { limit := some 10, chunk := some 2, period := some ⟨3, by decide⟩ } }
    let rows : List (List Int64) := [[12, -5], [3, -40, 6], [], [7]]
    let outcomes := (writeEach { sink } rows).1
    let t := (writeEach { sink } (rows.take 4)).2
    outcomes.map (·.drawn) = [2, 2, 0, 1] ∧ t.tally = ⟨1, 2, 8⟩ ∧ t.sink.octets.length = 10 ∧
      ∃ (calls : List Call) (part : List UInt8) (piece : Piece),
        List.Forall₂ Call.Gives calls outcomes ∧
        (calls.filterMap Call.refused).head? = some piece ∧ part <+: piece.octets ∧
        part.length = 2 ∧ 2 < piece.octets.length := by
  intro sink rows outcomes t
  obtain ⟨calls, part, -, hgives, haccounts, hpart⟩ := writeEach_accounts sink rows
  have htally : t.tally = ⟨1, 2, 8⟩ := by decide +kernel
  have hlength : t.sink.octets.length = 10 := by decide +kernel
  have hremainder : (Call.remainder (calls.take 4) part).length = 2 := by
    have h := (haccounts 4).2.2
    rw [show (writeEach { sink } (rows.take 4)).2 = t from rfl, htally, hlength] at h
    change 10 = 0 + 8 + (Call.remainder (calls.take 4) part).length at h
    omega
  have hall : (calls.take 4).all (·.refused.isNone) = false := by
    refine Bool.eq_false_iff.2 fun h => ?_
    rw [Call.remainder, if_pos h] at hremainder
    cases hremainder
  rw [Call.remainder, hall, if_neg (by decide)] at hremainder
  rcases hhead : (calls.filterMap Call.refused).head? with _ | piece
  · -- without a refused piece no call would have left anything behind
    rw [List.head?_eq_none_iff, List.filterMap_eq_nil_iff] at hhead
    rw [List.all_eq_false] at hall
    obtain ⟨call, hcall, hsome⟩ := hall
    rw [hhead call (List.mem_of_mem_take hcall)] at hsome
    exact absurd rfl hsome
  · obtain ⟨hfront, hlt, -⟩ := hpart piece hhead
    rw [hremainder] at hlt
    exact ⟨by decide +kernel, htally, hlength, calls, part, piece, hgives, hhead, hfront,
      hremainder, hlt⟩

end Transcript

end PartyInputs
