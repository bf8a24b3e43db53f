import PartyInputs.Proofs.Text.Escaping

/-!
# Values told from their text

A value of a report can be told from its text. What kind of value it is shows in the first
character, and a number, which could go on, is followed by a comma, by a line end or by nothing. The
members of an array or of an object stand between brackets, each on a line of its own: behind a
member there is a comma if there is one more, and a line end if not. The text of a member holds commas
and line ends too, but the member is told from what follows it before they are looked for, so an
induction over the value is enough.

* `Json.inductionOnMembers`: induction over a value and the members in it.
* `Json.kind_eq_of_renderAt`: **the kind shows in the first character**.
* `Json.block`: members between brackets, and `Json.delimitedAt_block`: they are told apart.
* `Json.delimited_renderAt`, `Json.pretty_injective`: **values are told from their text**.
-/

namespace PartyInputs.Text.Json

/-! ## Induction -/

/-- Induction over a value, for all items of an array and for the values of all fields of an
object. -/
@[elab_as_elim]
theorem inductionOnMembers {motive : Json → Prop} (null : motive null)
    (bool : ∀ b, motive (bool b)) (int : ∀ i, motive (int i)) (str : ∀ s, motive (str s))
    (arr : ∀ items, (∀ item ∈ items, motive item) → motive (arr items))
    (obj : ∀ fields, (∀ field ∈ fields, motive field.2) → motive (obj fields)) :
    ∀ v, motive v
  | .null => null
  | .bool b => bool b
  | .int i => int i
  | .str s => str s
  | .arr items => arr items fun item _ => inductionOnMembers null bool int str arr obj item
  | .obj fields =>
    obj fields fun (_, value) _ => inductionOnMembers null bool int str arr obj value
termination_by v => sizeOf v
decreasing_by
  · have hmem := List.sizeOf_lt_of_mem ‹item ∈ items›
    simp only [Json.arr.sizeOf_spec]
    omega
  · rename_i hmem
    have hlt := List.sizeOf_lt_of_mem hmem
    simp only [Json.obj.sizeOf_spec, Prod.mk.sizeOf_spec] at hlt ⊢
    omega

/-! ## Kinds -/

/-- The kinds of values. -/
inductive Kind where
  | null
  | bool
  | int
  | str
  | arr
  | obj

namespace Kind

/-- The kind of a value. -/
def ofValue : Json → Kind
  | .null => null
  | .bool _ => bool
  | .int _ => int
  | .str _ => str
  | .arr _ => arr
  | .obj _ => obj

/-- The kind that a character starts. -/
def ofStart (c : Char) : Kind :=
  if c = 'n' then null
  else if c = 't' ∨ c = 'f' then bool
  else if c = '"' then str
  else if c = '[' then arr
  else if c = '\x7b' then obj
  else int

/-- Numerals start with other characters than everything else. -/
theorem ofStart_of_isNumeric {c : Char} (h : Decimal.isNumeric c) : ofStart c = int := by
  unfold ofStart
  split_ifs with hn ht hquote harr hobj
  · simp [hn, Decimal.isNumeric] at h
  · rcases ht with rfl | rfl <;> simp [Decimal.isNumeric] at h
  · simp [hquote, Decimal.isNumeric] at h
  · simp [harr, Decimal.isNumeric] at h
  · simp [hobj, Decimal.isNumeric] at h
  · rfl

end Kind

/-- **The kind of a value shows in the first character.** -/
theorem exists_start (depth : Nat) (v : Json) :
    ∃ c rest, renderAt depth v = c :: rest ∧ Kind.ofStart c = Kind.ofValue v := by
  cases v with
  | null => exact ⟨_, _, rfl, rfl⟩
  | bool b => cases b <;> exact ⟨_, _, rfl, rfl⟩
  | int i =>
    rcases hi : Decimal.numeral i with _ | ⟨c, rest⟩
    · exact absurd hi (Decimal.numeral_ne_nil i)
    · have hc : c ∈ Decimal.numeral i := by simp [hi]
      exact ⟨c, rest, hi, Kind.ofStart_of_isNumeric (Decimal.isNumeric_of_mem_numeral hc)⟩
  | str s => exact ⟨_, _, rfl, rfl⟩
  | arr items => cases items <;> exact ⟨_, _, rfl, rfl⟩
  | obj fields => cases fields <;> exact ⟨_, _, rfl, rfl⟩

theorem kind_eq_of_renderAt {depth : Nat} {v w : Json} {x y : List Char}
    (h : renderAt depth v ++ x = renderAt depth w ++ y) : Kind.ofValue v = Kind.ofValue w := by
  obtain ⟨c, rest, hv, hc⟩ := exists_start depth v
  obtain ⟨d, rest', hw, hd⟩ := exists_start depth w
  rw [hv, hw] at h
  rw [← hc, ← hd, (List.cons.inj h).1]

/-! ## Members -/

/-- What follows a value: nothing, a comma or a line end. -/
def EndsValue (rest : List Char) : Prop := ∀ c ∈ rest.head?, c = ',' ∨ c = '\n'

section Members

variable {α : Type} {depth : Nat} {write : α → List Char} {a : α} {as : List α}

/-- A member that is not the first: behind a comma and on a line of its own. -/
def further (depth : Nat) (write : α → List Char) (a : α) : List Char :=
  ',' :: newLine depth ++ write a

/-- Members between brackets: nothing between them if there are no members, and otherwise each on a
line of its own. -/
def block (opening closing : Char) (depth : Nat) (write : α → List Char) : List α → List Char
  | [] => [opening, closing]
  | a :: as =>
    opening :: newLine (depth + 1) ++ write a ++ as.flatMap (further (depth + 1) write) ++
      newLine depth ++ [closing]

theorem delimitedAt_further (h : DelimitedAt EndsValue write a) :
    DelimitedAt EndsValue (further depth write) a := by
  intro b x y hx hy heq
  simp only [further, List.cons_append, List.append_assoc, List.cons.injEq, true_and] at heq
  exact h hx hy (List.append_cancel_left heq)

/-- A comma is behind a member if there is one more, and a line end if not. -/
theorem endsValue_flatMap_further (rest : List Char) :
    EndsValue (as.flatMap (further depth write) ++ '\n' :: rest) := by
  cases as <;> simp [EndsValue, further]

/-- **The members up to a line end** behind the last of them. -/
theorem delimitedAt_flatMap_further (h : ∀ a ∈ as, DelimitedAt EndsValue write a) :
    DelimitedAt Anything (fun list => list.flatMap (further depth write) ++ ['\n']) as := by
  have hfurther : ∀ a ∈ as, DelimitedAt EndsValue (further depth write) a :=
    fun a ha => delimitedAt_further (h a ha)
  apply delimitedAt_flatMap_mark hfurther
  · exact fun a => ⟨_, _, rfl, by decide⟩
  · simp [EndsValue, further]
  · simp [EndsValue]

/-- **Members between brackets** are told from what follows them if each of the members is. -/
theorem delimitedAt_block {opening closing : Char} (hclosing : closing ≠ '\n')
    (h : ∀ a ∈ as, DelimitedAt EndsValue write a) :
    DelimitedAt Anything (block opening closing depth write) as := by
  intro bs x y _ _ heq
  -- behind the opening bracket there is the closing one, or a line end
  cases as with
  | nil =>
    cases bs with
    | nil => exact ⟨rfl, List.append_cancel_left heq⟩
    | cons b bs => simp [block, newLine, hclosing] at heq
  | cons a as =>
    cases bs with
    | nil => simp [block, newLine, hclosing.symm] at heq
    | cons b bs =>
      obtain ⟨hfirst, has⟩ := List.forall_mem_cons.1 h
      simp only [block, newLine, List.cons_append, List.append_assoc, List.nil_append,
        List.cons.injEq, true_and, List.append_cancel_left_eq] at heq
      obtain ⟨rfl, hrest⟩ :=
        hfirst (endsValue_flatMap_further _) (endsValue_flatMap_further _) heq
      rw [List.append_cons, List.append_cons (bs.flatMap _)] at hrest
      obtain ⟨rfl, hend⟩ := delimitedAt_flatMap_further has trivial trivial hrest
      exact ⟨rfl, (List.cons.inj (List.append_cancel_left hend)).2⟩

end Members

/-! ## Values -/

/-- A field of an object. -/
def renderField (depth : Nat) (field : String × Json) : List Char :=
  renderString field.1 ++ [':', ' '] ++ renderAt depth field.2

theorem renderItems_eq (depth : Nat) (items : List Json) :
    renderItems depth items = items.flatMap (further depth (renderAt depth)) := by
  induction items with
  | nil => simp [renderItems]
  | cons item items ih => simp [renderItems, further, ih]

theorem renderFields_eq (depth : Nat) (fields : List (String × Json)) :
    renderFields depth fields = fields.flatMap (further depth (renderField depth)) := by
  induction fields with
  | nil => simp [renderFields]
  | cons field fields ih => simp [renderFields, renderField, further, ih]

theorem renderAt_arr (depth : Nat) (items : List Json) :
    renderAt depth (.arr items) = block '[' ']' depth (renderAt (depth + 1)) items := by
  cases items with
  | nil => simp [renderAt, block]
  | cons item items => simp [renderAt, block, renderItems_eq]

theorem renderAt_obj (depth : Nat) (fields : List (String × Json)) :
    renderAt depth (.obj fields) = block '\x7b' '\x7d' depth (renderField (depth + 1)) fields := by
  cases fields with
  | nil => simp [renderAt, block]
  | cons field fields => simp [renderAt, block, renderField, renderFields_eq]

/-- A field is told from what follows it if its value is. -/
theorem delimitedAt_renderField {depth : Nat} {field : String × Json}
    (h : DelimitedAt EndsValue (renderAt depth) field.2) :
    DelimitedAt EndsValue (renderField depth) field := by
  intro field' x y hx hy heq
  simp only [renderField, List.append_assoc] at heq
  obtain ⟨hname, hrest⟩ := delimited_renderString _ trivial trivial heq
  obtain ⟨hvalue, hend⟩ := h hx hy (List.append_cancel_left hrest)
  exact ⟨Prod.ext hname hvalue, hend⟩

/-- No character of a numeral is a comma or a line end. -/
theorem EndsValue.startsOutside {x : List Char} (h : EndsValue x) :
    StartsOutside Decimal.isNumeric x := by
  intro c hc
  rcases h c hc with rfl | rfl <;> rfl

/-- **Values are told from what follows them.** -/
theorem delimitedAt_renderAt (v : Json) : ∀ depth, DelimitedAt EndsValue (renderAt depth) v := by
  -- the other value is of the same kind, so in each case there is one way in which it can end
  induction v using inductionOnMembers with
  | null =>
    intro depth w x y _ _ heq
    cases w with
    | null => exact ⟨rfl, List.append_cancel_left heq⟩
    | _ => cases kind_eq_of_renderAt heq
  | bool b =>
    intro depth w x y _ _ heq
    cases w with
    | bool b' => cases b <;> cases b' <;> simp_all [renderAt]
    | _ => cases kind_eq_of_renderAt heq
  | int i =>
    intro depth w x y hx hy heq
    cases w with
    | int j =>
      obtain ⟨rfl, hend⟩ := Decimal.delimited_numeral i hx.startsOutside hy.startsOutside heq
      exact ⟨rfl, hend⟩
    | _ => cases kind_eq_of_renderAt heq
  | str s =>
    intro depth w x y _ _ heq
    cases w with
    | str t =>
      obtain ⟨rfl, hend⟩ := delimited_renderString s trivial trivial heq
      exact ⟨rfl, hend⟩
    | _ => cases kind_eq_of_renderAt heq
  | arr items ih =>
    intro depth w x y _ _ heq
    cases w with
    | arr items' =>
      rw [renderAt_arr, renderAt_arr] at heq
      obtain ⟨rfl, hend⟩ :=
        delimitedAt_block (by decide) (fun item h => ih item h _) trivial trivial heq
      exact ⟨rfl, hend⟩
    | _ => cases kind_eq_of_renderAt heq
  | obj fields ih =>
    intro depth w x y _ _ heq
    cases w with
    | obj fields' =>
      rw [renderAt_obj, renderAt_obj] at heq
      obtain ⟨rfl, hend⟩ := delimitedAt_block (by decide)
        (fun field h => delimitedAt_renderField (ih field h _)) trivial trivial heq
      exact ⟨rfl, hend⟩
    | _ => cases kind_eq_of_renderAt heq

theorem delimited_renderAt (depth : Nat) : Delimited EndsValue (renderAt depth) :=
  fun v => delimitedAt_renderAt v depth

/-- **Values are told from their text.** -/
theorem pretty_injective : Function.Injective pretty := by
  intro v w h
  apply (delimited_renderAt 0).injective (by simp [EndsValue])
  exact String.ofList_injective h

end PartyInputs.Text.Json
