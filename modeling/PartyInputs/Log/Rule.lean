import PartyInputs.Log.Event
import PartyInputs.Text.Pattern
import PartyInputs.Text.Unicode.Blank
import PartyInputs.Text.Utf8

/-!
# Rules of log filters

A rule says up to which level events are shown. It is a level (`info`), a target (`fixture`), or a
target with what events it speaks for in brackets and a level behind an equals sign
(`fixture[{path}]=debug`), where parts are left out at will. A target speaks for the events whose
target starts with it, a field in braces for the events that have it.

A rule can also name a span (`[request]`), or ask for the value of a field (`[{path=a}]`), for which
only spans are asked. Such a rule is understood, but no event stands in a span.

Blanks around a rule are passed over while its parts are located. The parts are then cut out of the
text with its blanks, at the same places: behind blanks each part is cut too early, by as many
octets as the blanks take.
-/

namespace PartyInputs

/-- A rule of a filter. -/
structure FilterRule where
  /-- What the targets of the events that the rule speaks for start with. -/
  target : Option String := none
  /-- A field that the events have that the rule speaks for. -/
  field : Option String := none
  /-- Whether the rule is about spans only. -/
  aboutSpans : Bool := false
  /-- The highest rank that is shown; zero shows nothing. -/
  rank : Nat := Level.trace.rank
  deriving DecidableEq, Repr

namespace FilterRule

/-- Whether the rule speaks for an event. -/
def covers (r : FilterRule) (e : Event) : Bool :=
  !r.aboutSpans && (r.target.all fun start => start.toList.isPrefixOf e.target.toList) &&
    r.field.all e.fieldNames.contains

/-- How much of a target the rule names. -/
def weight (r : FilterRule) : Nat := r.target.elim 0 fun start => start.utf8ByteSize + 1

/-- Whether a rule is at most as specific as another: it names less of a target, or as much and no
field, or as much and a field that does not come behind the other one. -/
def yieldsTo (r other : FilterRule) : Bool :=
  r.weight < other.weight ||
    (r.weight = other.weight && match r.field, other.field with
      | none, _ => true
      | some _, none => false
      | some name, some otherName => name ≤ otherName)

/-! ## Levels -/

/-- The levels by name, and the name for showing nothing. -/
def rankNames : List (String × Nat) :=
  [("off", 0), ("error", 1), ("warn", 2), ("info", 3), ("debug", 4), ("trace", 5)]

/-- The rank that a number or a name in letters of either case stands for. -/
def rank? (text : List Char) : Option Nat :=
  let number := match text with
    | '+' :: cs => Text.Decimal.nat? cs
    | cs => Text.Decimal.nat? cs
  match number with
  | some n => if n ≤ 5 then some n else none
  | none => rankNames.lookup (String.ofList (text.map Char.toLower))

/-! ## Fields -/

/-- Whether a text is a number with a fraction and an exponent, each of them optional, or the name
of what is no finite number. -/
def isReal (text : List Char) : Bool :=
  let digits := text.takeWhile Char.isDigit
  let (fraction, rest) := match text.dropWhile Char.isDigit with
    | '.' :: rest => (rest.takeWhile Char.isDigit, rest.dropWhile Char.isDigit)
    | rest => ([], rest)
  let exponentFits := match rest with
    | [] => true
    | 'e' :: '+' :: cs | 'e' :: '-' :: cs | 'E' :: '+' :: cs | 'E' :: '-' :: cs
    | 'e' :: cs | 'E' :: cs => (Text.Decimal.nat? cs).isSome
    | _ => false
  (digits ++ fraction ≠ [] && exponentFits) ||
    String.ofList (text.map Char.toLower) ∈ ["inf", "infinity", "nan"]

/-- Whether the value of a field can be compared with a text: with a pattern, or with a number,
which is a pattern too unless a plus sign stands in front of it. -/
def isFieldValue (text : List Char) : Bool :=
  Text.Pattern.isWellFormed text || (text.head? = some '+' && isReal text.tail)

/-- The name of a field, and whether something is asked of its value. What follows a second equals
sign is passed over. -/
def field? (text : List Char) : Option (String × Bool) :=
  match text.splitOn '=' with
  | [] | [[]] => none
  | [name] => some (String.ofList name, false)
  | name :: value :: _ => if isFieldValue value then some (String.ofList name, true) else none

/-! ## Locating parts -/

/-- Where a part of a rule stands: the octets before it, and those up to its end. -/
structure Place where
  start : Nat
  stop : Nat

/-- Where the parts of a rule stand. -/
structure Layout where
  target : Option Place := none
  span : Option Place := none
  field : Option Place := none
  /-- The octets before the level. -/
  level : Option Nat := none

/-- The number of octets of a text. -/
def size (text : List Char) : Nat := (Text.Utf8.encode text).length

/-- Whether a target can start with `c`. -/
def isTargetStart (c : Char) : Bool :=
  c = '-' || c = ':' || c = '_' || Text.Unicode.isAlphabetic c || Text.Unicode.isNumeric c

namespace Layout

/-- Locates the level behind the closing bracket, which ends at the octet `stop`. -/
def close? (layout : Layout) (stop : Nat) : List Char → Option Layout
  | [] => some layout
  | '=' :: _ => some { layout with level := some (stop + 1) }
  | _ => none

/-- Locates what stands in brackets, the first of which ends at the octet `start`. -/
def bracket? (layout : Layout) (start : Nat) (text : List Char) : Option Layout :=
  let stop := start + size (text.takeWhile fun c => c ≠ ']' && c ≠ '{')
  let layout := { layout with span := some ⟨start, stop⟩ }
  match text.dropWhile fun c => c ≠ ']' && c ≠ '{' with
  | ']' :: rest => layout.close? (stop + 1) rest
  | '{' :: rest =>
    let fieldStop := stop + 1 + size (rest.takeWhile (· ≠ '}'))
    match rest.dropWhile (· ≠ '}') with
    | '}' :: ']' :: rest =>
      close? { layout with field := some ⟨stop + 1, fieldStop⟩ } (fieldStop + 2) rest
    | _ => none
  | _ => none

/-- Locates the parts of a rule without blanks around it. A rule that is one word has none. -/
def ofText? : List Char → Option Layout
  | [] => none
  | '[' :: rest => bracket? {} 1 rest
  | c :: cs =>
    if !isTargetStart c then none
    else
      let stop := size ((c :: cs).takeWhile fun c => c ≠ '=' && c ≠ '[')
      match (c :: cs).dropWhile fun c => c ≠ '=' && c ≠ '[' with
      | [] => some {}
      | '=' :: _ => some { target := some ⟨0, stop⟩, level := some (stop + 1) }
      | _ :: rest => bracket? { target := some ⟨0, stop⟩ } (stop + 1) rest

end Layout

/-! ## Reading rules -/

/-- What stands at a place of a text; `none` if the place starts or ends within a character. -/
def cut? (text : List Char) (place : Place) : Option (List Char) :=
  (Text.Utf8.decode (((Text.Utf8.encode text).take place.stop).drop place.start)).toOption

/-- The rule that is one word: a level if it names one, and otherwise a target. -/
def ofWord (text : List Char) : FilterRule :=
  match rank? text with
  | some rank => { rank }
  | none => { target := some (String.ofList text) }

/-- The rule whose parts stand at the given places of a text. -/
def ofParts? (text : List Char) (layout : Layout) : Option FilterRule := do
  let target ← layout.target.mapM fun place => (cut? text place).map String.ofList
  let span ← layout.span.mapM (cut? text)
  let field ← layout.field.mapM fun place => (cut? text place).bind field?
  let level ← layout.level.mapM fun start => cut? text ⟨start, size text⟩
  let rank ← match level with
    | none | some [] => some Level.trace.rank
    | some level => rank? level
  let namesSpan := span.any fun name => field.isNone || name ≠ []
  return { target, field := field.map (·.1), aboutSpans := namesSpan || field.any (·.2), rank }

/-- The rule that a text stands for. -/
def ofText? (text : List Char) : Option FilterRule :=
  match Layout.ofText? (Text.Unicode.trim text) with
  | none => none
  | some { target := none, span := none, .. } => some (ofWord text)
  | some layout => ofParts? text layout

end FilterRule

end PartyInputs
