import PartyInputs.Log.Rule

/-!
# Log filters

Which events are shown. A filter is a list of rules, written with commas between them. Of the rules
that speak for an event the most specific one decides: the one with the longest target, and of those
one that names a field before one that names none.
-/

namespace PartyInputs

/-- A list of rules. -/
structure Filter where
  rules : List FilterRule
  deriving DecidableEq, Repr

namespace Filter

/-- The filter that a text stands for; `none` if one of its rules cannot be understood. A filter
without rules shows errors only. -/
def ofText? (text : String) : Option Filter :=
  let rules := ((text.toList.splitOn ',').filter (· ≠ [])).mapM fun rule =>
    FilterRule.ofText? rule
  rules.map fun rules => ⟨if rules.isEmpty then [{ rank := Level.error.rank }] else rules⟩

/-- The filter that shows all events up to a level. -/
def upTo (level : Level) : Filter := ⟨[{ rank := level.rank }]⟩

/-- The rule that decides about an event: of two that are equally specific, the later one. -/
def ruleFor? (f : Filter) (e : Event) : Option FilterRule :=
  (f.rules.filter (·.covers e)).foldl
    (fun best rule => match best with
      | none => some rule
      | some other => if other.yieldsTo rule then some rule else some other)
    none

/-- Whether the filter shows an event. -/
def shows (f : Filter) (e : Event) : Bool :=
  (f.ruleFor? e).any fun rule => e.level.rank ≤ rule.rank

/-- The filter for a number of requests for more detail and the filter text of the environment: a
text that can be understood decides alone. -/
def choose (verbosity : Nat) (text : Option String) : Filter :=
  (text.bind ofText?).getD (upTo (match verbosity with
    | 0 => .warn
    | 1 => .debug
    | _ => .trace))

end Filter

end PartyInputs
