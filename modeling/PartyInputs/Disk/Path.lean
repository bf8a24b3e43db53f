/-!
# Paths

A path is text. Between slashes it names the entries to pass through; empty names say nothing, a
single dot stays and two dots lead upwards. `Route` is what the system makes of a path, and
`parent?` is what is left of its text without its last name.

## Main statements

* `length_lt_of_parent?`: a parent is shorter, so going from parent to parent ends.
-/

namespace PartyInputs

/-! ## Routes -/

/-- What the system makes of a path. -/
structure Route where
  /-- Whether the path starts at the root. -/
  rooted : Bool
  /-- The names to pass through, dots included. -/
  names : List String
  /-- Whether a slash after the last name demands a directory. -/
  closed : Bool
  deriving DecidableEq, Repr

/-- The route of a path. -/
def Route.ofPath (path : String) : Route where
  rooted := path.toList.head? = some '/'
  names := ((path.toList.splitOn '/').map String.ofList).filter (· ≠ "")
  closed := path.toList.getLast? = some '/'

namespace Path

/-! ## Parents -/

/-- Drops what says nothing at the end of a path: slashes, and single dots behind a slash. The path
is given with its last character first; its first character is never dropped. -/
def trimEnd : List Char → List Char
  | '/' :: c :: rest => trimEnd (c :: rest)
  | '.' :: '/' :: rest => trimEnd ('/' :: rest)
  | path => path
termination_by path => path.length

/-- The text before the last name of a path; `none` if there is no name. -/
def parent? (path : String) : Option String :=
  match trimEnd path.toList.reverse with
  | [] => none
  | ['/'] => none
  | trimmed => some (String.ofList (trimEnd (trimmed.dropWhile (· ≠ '/'))).reverse)

theorem length_trimEnd_le (path : List Char) : (trimEnd path).length ≤ path.length := by
  fun_induction trimEnd path with
  | case1 c rest ih => simp only [List.length_cons] at ih ⊢; omega
  | case2 rest ih => simp only [List.length_cons] at ih ⊢; omega
  | case3 path => exact Nat.le_refl _

/-- What is trimmed does not end in a slash, except for the root alone. -/
theorem head?_trimEnd {path : List Char} (h : (trimEnd path).head? = some '/') :
    trimEnd path = ['/'] := by
  fun_induction trimEnd path with
  | case1 c rest ih => exact ih h
  | case2 rest ih => exact ih h
  | case3 path h₁ h₂ =>
    match path with
    | [] => simp at h
    | [c] => simpa using h
    | c :: d :: rest =>
      simp only [List.head?_cons, Option.some.injEq] at h
      exact (h₁ d rest (by rw [h])).elim

/-- A parent is shorter than the path. -/
theorem length_lt_of_parent? {path parent : String} (h : parent? path = some parent) :
    parent.length < path.length := by
  have hle := length_trimEnd_le path.toList.reverse
  unfold parent? at h
  split at h
  · cases h
  · cases h
  · rename_i h₁ h₂
    rcases ht : trimEnd path.toList.reverse with _ | ⟨c, rest⟩
    · exact absurd ht h₁
    · have hc : c ≠ '/' := fun hc => h₂ (head?_trimEnd (by simp [ht, hc]))
      simp only [ht, Option.some.injEq] at h
      subst h
      have hdrop : ((c :: rest).dropWhile (· ≠ '/')).length ≤ rest.length := by
        rw [List.dropWhile_cons_of_pos (by simp [hc])]
        exact (List.dropWhile_suffix _).length_le
      have htrim := length_trimEnd_le ((c :: rest).dropWhile (· ≠ '/'))
      simp only [ht, List.length_cons, List.length_reverse, String.length_toList] at hle
      simp only [String.length_ofList, List.length_reverse]
      omega

end Path

end PartyInputs
