import Mathlib.Data.List.Basic
import PartyInputs.Proofs.Table.Runs

/-!
# Where runs stand

A run of octets may occur more than once in a file, so which of its occurrences is meant is said by
what stands in front of it. The number of line feeds there gives the line that the run is on, and
its length says which of two runs comes first.

* `Table.RunAt`: **a maximal run and its place**, which determines it (`Table.RunAt.unique`).
* `Table.RunAt.maximalRun_of_lt`: runs that start earlier are runs of what stands in front.
* `Table.Runs.exists_runAt`: a run with the runs in front of it.
* `Table.runs_endedLines`: the runs in front of a line.
-/

namespace PartyInputs.Table

/-! ## Places -/

/-- A blank stands in front of a line, if anything does. -/
theorem isBlankOctet_of_getLast? {octets : List UInt8}
    (h : octets = [] ∨ octets.getLast? = some terminator) :
    ∀ o, octets.getLast? = some o → isBlankOctet o = true := by
  intro o ho
  rcases h with rfl | h
  · cases ho
  · rw [h, Option.some.injEq] at ho
    exact ho ▸ isBlankOctet_terminator

/-- A blank follows a line, if anything does. -/
theorem isBlankOctet_of_head? {octets : List UInt8}
    (h : octets = [] ∨ octets.head? = some terminator) :
    ∀ o, octets.head? = some o → isBlankOctet o = true := by
  intro o ho
  rcases h with rfl | h
  · cases ho
  · rw [h, Option.some.injEq] at ho
    exact ho ▸ isBlankOctet_terminator

/-- `run` is a maximal run of octets other than blanks, and it stands behind `before`. -/
structure RunAt (octets before run : List UInt8) : Prop where
  ne_nil : run ≠ []
  not_blank : ∀ o ∈ run, isBlankOctet o = false
  starts : ∀ o, before.getLast? = some o → isBlankOctet o = true
  ends : ∃ after, octets = before ++ run ++ after ∧
    ∀ o, after.head? = some o → isBlankOctet o = true

theorem exists_runAt_iff {octets run : List UInt8} :
    (∃ before, RunAt octets before run) ↔ MaximalRun octets run := by
  constructor
  · rintro ⟨before, hne, hrun, hbefore, after, heq, hafter⟩
    exact ⟨hne, hrun, before, after, heq, hbefore, hafter⟩
  · rintro ⟨hne, hrun, before, after, heq, hbefore, hafter⟩
    exact ⟨before, hne, hrun, hbefore, after, heq, hafter⟩

namespace RunAt

variable {octets before before' run run' : List UInt8}

theorem append_isPrefix (h : RunAt octets before run) : before ++ run <+: octets := by
  obtain ⟨after, heq, -⟩ := h.ends
  exact ⟨after, heq.symm⟩

theorem before_isPrefix (h : RunAt octets before run) : before <+: octets :=
  (List.prefix_append before run).trans h.append_isPrefix

/-- Of two runs at one place the one that ends first goes up to a blank, which the other one would
contain. -/
theorem eq_of_isPrefix (h : RunAt octets before run) (h' : RunAt octets before run')
    (hle : run <+: run') : run = run' := by
  obtain ⟨more, rfl⟩ := hle
  rcases more with _ | ⟨o, more⟩
  · rw [List.append_nil]
  · obtain ⟨after, heq, hafter⟩ := h.ends
    obtain ⟨after', heq', -⟩ := h'.ends
    rw [heq', ← List.append_assoc before, List.append_assoc (before ++ run),
      List.append_cancel_left_eq] at heq
    have hblank := hafter o (by rw [← heq]; rfl)
    rw [h'.not_blank o (by simp)] at hblank
    cases hblank

/-- **A place determines its run.** -/
theorem unique (h : RunAt octets before run) (h' : RunAt octets before run') : run = run' := by
  have hcases := List.prefix_or_prefix_of_prefix h.append_isPrefix h'.append_isPrefix
  rw [List.prefix_append_right_inj, List.prefix_append_right_inj] at hcases
  rcases hcases with hle | hle
  · exact h.eq_of_isPrefix h' hle
  · exact (h'.eq_of_isPrefix h hle).symm

/-- Two runs start at the same place if equally many octets stand in front of them. -/
theorem before_eq_of_length_eq (h : RunAt octets before run) (h' : RunAt octets before' run')
    (hlength : before.length = before'.length) : before = before' := by
  rw [List.prefix_iff_eq_take.1 h.before_isPrefix, List.prefix_iff_eq_take.1 h'.before_isPrefix,
    hlength]

/-- **Runs that start earlier** are runs of what stands in front: they end there, since a blank
does. -/
theorem maximalRun_of_lt (h : RunAt octets before run) (h' : RunAt octets before' run')
    (hlt : before'.length < before.length) : MaximalRun before run' := by
  obtain ⟨after, heq, -⟩ := h.ends
  obtain ⟨after', heq', hafter'⟩ := h'.ends
  rw [heq', List.append_assoc, List.append_assoc, List.append_eq_append_iff] at heq
  rcases heq with ⟨tail, rfl, htail⟩ | ⟨tail, rfl, -⟩
  · rw [List.append_eq_append_iff] at htail
    rcases htail with ⟨more, rfl, hmore⟩ | ⟨more, rfl, -⟩
    · -- the earlier run ends in front of the later one
      rw [← List.append_assoc]
      refine ⟨h'.ne_nil, h'.not_blank, before', more, rfl, h'.starts, ?_⟩
      intro o ho
      refine hafter' o ?_
      rw [hmore, List.head?_append, ho]
      rfl
    · -- the earlier run would contain the blank in front of the later one
      rcases List.eq_nil_or_concat tail with rfl | ⟨init, o, rfl⟩
      · rw [List.append_nil] at hlt
        exact absurd hlt (Nat.lt_irrefl _)
      · have hblank := h.starts o (by simp)
        rw [h'.not_blank o (by simp)] at hblank
        cases hblank
  · rw [List.length_append] at hlt
    omega

/-- A run of a line is a run of the whole, behind what stands in front of the line too. -/
theorem of_line {front line after : List UInt8} (h : RunAt line before run)
    (hfront : front = [] ∨ front.getLast? = some terminator)
    (hafter : after = [] ∨ after.head? = some terminator) :
    RunAt (front ++ line ++ after) (front ++ before) run := by
  refine ⟨h.ne_nil, h.not_blank, ?_, ?_⟩
  · intro o ho
    rw [List.getLast?_append, Option.or_eq_some_iff] at ho
    rcases ho with hbefore | ⟨-, ho⟩
    · exact h.starts o hbefore
    · exact isBlankOctet_of_getLast? hfront o ho
  · obtain ⟨rest, rfl, hrest⟩ := h.ends
    refine ⟨rest ++ after, by simp only [List.append_assoc], ?_⟩
    intro o ho
    rw [List.head?_append, Option.or_eq_some_iff] at ho
    rcases ho with ho | ⟨-, ho⟩
    · exact hrest o ho
    · exact isBlankOctet_of_head? hafter o ho

end RunAt

/-! ## The runs in front -/

namespace Runs

variable {octets rest : List UInt8} {runs more : List (List UInt8)}

/-- Runs of octets that follow each other, if no run goes on from the first ones to the others. -/
theorem append (h : Runs octets runs) (h' : Runs rest more)
    (hends : (∀ o, octets.getLast? = some o → isBlankOctet o = true) ∨
      ∀ o, rest.head? = some o → isBlankOctet o = true) :
    Runs (octets ++ rest) (runs ++ more) := by
  induction h with
  | nil => exact h'
  | @blank o octets runs ho _ ih =>
    refine .blank ho (ih ?_)
    refine hends.imp_left fun hlast x hx => hlast x ?_
    rw [List.getLast?_cons, hx]
    rfl
  | @run run octets runs hne hrun hhead _ ih =>
    rw [List.append_assoc, List.cons_append]
    refine .run hne hrun ?_ (ih ?_)
    · intro o ho
      rw [List.head?_append, Option.or_eq_some_iff] at ho
      rcases ho with ho | ⟨hnone, ho⟩
      · exact hhead o ho
      · -- the run ends the first octets, so a blank has to start the others
        rw [List.head?_eq_none_iff.1 hnone, List.append_nil] at hends
        refine hends.resolve_left (fun hlast => ?_) o ho
        have hblank := hlast _ (List.getLast?_eq_some_getLast hne)
        rw [hrun _ (List.getLast_mem hne)] at hblank
        cases hblank
    · refine hends.imp_left fun hlast x hx => hlast x ?_
      rw [List.getLast?_append, hx]
      rfl

/-- **A run with the runs in front of it.** -/
theorem exists_runAt (h : Runs octets runs) : ∀ {front back : List (List UInt8)}
    {run : List UInt8}, runs = front ++ run :: back →
      ∃ before, RunAt octets before run ∧ Runs before front := by
  induction h with
  | nil =>
    intro front back run heq
    exact absurd heq.symm (by simp)
  | @blank o octets runs ho _ ih =>
    intro front back run heq
    obtain ⟨before, hat, hfront⟩ := ih heq
    refine ⟨o :: before, ⟨hat.ne_nil, hat.not_blank, ?_, ?_⟩, .blank ho hfront⟩
    · intro x hx
      rw [List.getLast?_cons, Option.some.injEq] at hx
      rcases hlast : before.getLast? with _ | y
      · rw [hlast] at hx
        exact hx ▸ ho
      · rw [hlast] at hx
        exact hx ▸ hat.starts y hlast
    · obtain ⟨after, rfl, hafter⟩ := hat.ends
      exact ⟨after, rfl, hafter⟩
  | @run first octets runs hne hfirst hhead hrest ih =>
    intro front back run heq
    rcases front with _ | ⟨r, front⟩
    · cases heq
      exact ⟨[], ⟨hne, hfirst, by simp, octets, rfl, hhead⟩, .nil⟩
    · cases heq
      obtain ⟨before, hat, hfront⟩ := ih rfl
      obtain ⟨after, rfl, hafter⟩ := hat.ends
      -- a blank follows the first run, so something stands in front of the other one
      have hbefore : before ≠ [] := by
        rintro rfl
        obtain ⟨x, xs, rfl⟩ := List.exists_cons_of_ne_nil hat.ne_nil
        have hblank := hhead x rfl
        rw [hat.not_blank x List.mem_cons_self] at hblank
        cases hblank
      refine ⟨first ++ before, ⟨hat.ne_nil, hat.not_blank, ?_, after, ?_, hafter⟩, ?_⟩
      · intro x hx
        rw [List.getLast?_append_of_ne_nil _ hbefore] at hx
        exact hat.starts x hx
      · simp only [List.append_assoc]
      · refine .run hne hfirst (fun x hx => hhead x ?_) hfront
        rw [List.append_assoc, List.head?_append_of_ne_nil _ hbefore]
        exact hx

end Runs

/-- The runs of lines that are ended are those of each line, one line after the other. -/
theorem runs_endedLines (lines : List (List UInt8)) :
    Runs (endedLines lines) (lines.flatMap octetRuns) := by
  induction lines with
  | nil => exact .nil
  | cons line lines ih =>
    rw [endedLines_cons, List.append_assoc, List.flatMap_cons]
    refine (runs_octetRuns line).append (.blank isBlankOctet_terminator ih) (.inr ?_)
    intro o ho
    cases ho
    exact isBlankOctet_terminator

end PartyInputs.Table
