import Mathlib.Data.List.TakeWhile
import PartyInputs.Proofs.Table.Blanks

/-!
# Runs and lines of octets

What a file says is decided by the maximal runs of octets other than blanks and by the line feeds
between them. Here both are described without cutting anything, and cutting is shown to find them.

* `Table.MaximalRun`: a run that is neither preceded nor followed by an octet of the same kind.
* `Table.Runs`: **all maximal runs in order**, as a relation (`Table.Runs.mem_iff`).
* `Table.IsLine`: the octets between two line feeds that follow each other.
* `Table.octetRuns`, `Table.octetLines`: runs and lines as cutting finds them.
* `Table.exists_line_append`: a line behind the lines in front of it, which are ended.
* `Table.runs_octetRuns`, `Table.isLine_octetLines`: what cutting finds is what there is.
* `Table.flatMap_octetRuns_octetLines`: no run goes across the end of a line.
-/

namespace PartyInputs.Table

/-! ## Runs -/

/-- `run` is a run of octets other than blanks, and it cannot be made longer. -/
def MaximalRun (octets run : List UInt8) : Prop :=
  run ≠ [] ∧ (∀ o ∈ run, isBlankOctet o = false) ∧
    ∃ before after, octets = before ++ run ++ after ∧
      (∀ o, before.getLast? = some o → isBlankOctet o = true) ∧
      (∀ o, after.head? = some o → isBlankOctet o = true)

/-- `runs` are the maximal runs of `octets`, from first to last: blanks are passed over, and a run
goes up to a blank or to the end. -/
inductive Runs : List UInt8 → List (List UInt8) → Prop where
  | nil : Runs [] []
  | blank {o : UInt8} {rest : List UInt8} {runs : List (List UInt8)} :
      isBlankOctet o = true → Runs rest runs → Runs (o :: rest) runs
  | run {run rest : List UInt8} {runs : List (List UInt8)} :
      run ≠ [] → (∀ o ∈ run, isBlankOctet o = false) →
      (∀ o, rest.head? = some o → isBlankOctet o = true) → Runs rest runs →
      Runs (run ++ rest) (run :: runs)

theorem not_maximalRun_nil (run : List UInt8) : ¬ MaximalRun [] run := by
  rintro ⟨hne, -, before, after, heq, -, -⟩
  have := List.append_eq_nil_iff.1 heq.symm
  exact hne (List.append_eq_nil_iff.1 this.1).2

/-- A blank in front makes no run longer and adds none. -/
theorem maximalRun_blank_cons {o : UInt8} (ho : isBlankOctet o = true) {rest run : List UInt8} :
    MaximalRun (o :: rest) run ↔ MaximalRun rest run := by
  constructor
  · rintro ⟨hne, hrun, before, after, heq, hbefore, hafter⟩
    refine ⟨hne, hrun, ?_⟩
    rcases before with _ | ⟨x, before⟩
    · -- the run would start with the blank
      obtain ⟨y, ys, rfl⟩ := List.exists_cons_of_ne_nil hne
      simp only [List.nil_append, List.cons_append, List.cons.injEq] at heq
      rw [← heq.1] at hrun
      rw [hrun o List.mem_cons_self] at ho
      cases ho
    · simp only [List.cons_append, List.cons.injEq] at heq
      refine ⟨before, after, heq.2, ?_, hafter⟩
      intro y hy
      exact hbefore y (by rw [List.getLast?_cons, hy]; rfl)
  · rintro ⟨hne, hrun, before, after, rfl, hbefore, hafter⟩
    refine ⟨hne, hrun, o :: before, after, by simp, ?_, hafter⟩
    intro y hy
    rw [List.getLast?_cons, Option.some.injEq] at hy
    rcases hl : before.getLast? with _ | z
    · rw [hl] at hy; exact hy ▸ ho
    · rw [hl] at hy; exact hy ▸ hbefore z hl

/-- A run in front that a blank or the end follows is a maximal run, and the others come behind
it. -/
theorem maximalRun_append {front rest : List UInt8} (hne : front ≠ [])
    (hfront : ∀ o ∈ front, isBlankOctet o = false)
    (hrest : ∀ o, rest.head? = some o → isBlankOctet o = true) {run : List UInt8} :
    MaximalRun (front ++ rest) run ↔ run = front ∨ MaximalRun rest run := by
  constructor
  · rintro ⟨hrne, hrun, before, after, heq, hbefore, hafter⟩
    rw [List.append_assoc, List.append_eq_append_iff] at heq
    rcases heq with ⟨tail, rfl, htail⟩ | ⟨tail, rfl, htail⟩
    · -- the run lies behind `front`
      right
      refine ⟨hrne, hrun, tail, after, by rw [htail, List.append_assoc], ?_, hafter⟩
      intro o ho
      exact hbefore o (by rw [List.getLast?_append, ho]; rfl)
    · -- the run starts within `front`, so it starts with it and ends with it
      left
      have hnil : before = [] := by
        rcases List.eq_nil_or_concat before with h | ⟨init, o, rfl⟩
        · exact h
        · have hblank := hbefore o (by simp)
          rw [hfront o (by simp)] at hblank
          cases hblank
      subst hnil
      rw [List.nil_append]
      rw [List.append_eq_append_iff] at htail
      rcases htail with ⟨more, rfl, hmore⟩ | ⟨more, rfl, hmore⟩
      · rcases more with _ | ⟨o, more⟩
        · rw [List.append_nil]
        · have hblank := hafter o (by rw [hmore]; rfl)
          rw [hfront o (by simp)] at hblank
          cases hblank
      · rcases more with _ | ⟨o, more⟩
        · rw [List.append_nil]
        · have hblank := hrest o (by rw [hmore]; rfl)
          rw [hrun o (by simp)] at hblank
          cases hblank
  · rintro (rfl | ⟨hrne, hrun, before, after, rfl, hbefore, hafter⟩)
    · exact ⟨hne, hfront, [], rest, rfl, by simp, hrest⟩
    · refine ⟨hrne, hrun, front ++ before, after, by simp, ?_, hafter⟩
      intro o ho
      rcases List.eq_nil_or_concat before with rfl | ⟨init, x, rfl⟩
      · -- the run would be joined to `front`
        obtain ⟨y, ys, rfl⟩ := List.exists_cons_of_ne_nil hrne
        have hblank := hrest y rfl
        rw [hrun y List.mem_cons_self] at hblank
        cases hblank
      · refine hbefore o ?_
        simpa using ho

/-- The runs of the relation are the maximal runs. -/
theorem Runs.mem_iff {octets : List UInt8} {runs : List (List UInt8)} (h : Runs octets runs)
    {run : List UInt8} : run ∈ runs ↔ MaximalRun octets run := by
  induction h with
  | nil => simp [not_maximalRun_nil]
  | blank ho _ ih => rw [ih, maximalRun_blank_cons ho]
  | run hne hrun hrest _ ih => rw [List.mem_cons, ih, maximalRun_append hne hrun hrest]

/-! ## Cutting at blanks -/

/-- The runs that cutting at blanks finds. -/
def octetRuns (octets : List UInt8) : List (List UInt8) :=
  (octets.splitOnP isBlankOctet).filter (· ≠ [])

/-- Cutting at blanks finds the maximal runs in order. -/
theorem runs_octetRuns (octets : List UInt8) : Runs octets (octetRuns octets) := by
  induction hn : octets.length using Nat.strongRecOn generalizing octets with
  | _ n ih =>
    -- the octets up to the first blank, and what is left from it on
    obtain ⟨front, rest, rfl, hfront, hrest⟩ : ∃ front rest, octets = front ++ rest ∧
        (∀ o ∈ front, isBlankOctet o = false) ∧
        ∀ o, rest.head? = some o → isBlankOctet o = true := by
      refine ⟨octets.takeWhile (!isBlankOctet ·), octets.dropWhile (!isBlankOctet ·),
        List.takeWhile_append_dropWhile.symm, ?_, ?_⟩
      · intro o ho
        simpa using List.mem_takeWhile_imp ho
      · intro o ho
        have := List.head?_dropWhile_not (!isBlankOctet ·) octets
        rw [ho] at this
        simpa using this
    have hpieces : octetRuns (front ++ rest) = (if front = [] then [] else [front]) ++
        octetRuns rest.tail := by
      rcases rest with _ | ⟨o, rest⟩
      · rw [List.append_nil, octetRuns, List.splitOnP_eq_singleton hfront]
        by_cases h : front = [] <;> simp [h, octetRuns]
      · rw [octetRuns, List.splitOnP_append_cons_of_forall_mem hfront o (hrest o rfl)]
        by_cases h : front = [] <;> simp [h, octetRuns]
    have htail : Runs rest (octetRuns rest.tail) := by
      rcases rest with _ | ⟨o, rest⟩
      · exact .nil
      · refine .blank (hrest o rfl) (ih rest.length ?_ rest rfl)
        simp only [List.length_append, List.length_cons] at hn
        omega
    rw [hpieces]
    by_cases h : front = []
    · rw [if_pos h, h]
      exact htail
    · rw [if_neg h]
      exact .run h hfront hrest htail

/-! ## Lines -/

/-- `line` holds the octets behind the first `i` line feeds and in front of the next one, or in
front of the end if there is none. -/
def IsLine (octets : List UInt8) (i : Nat) (line : List UInt8) : Prop :=
  ∃ before after, octets = before ++ line ++ after ∧ before.count terminator = i ∧
    (before = [] ∨ before.getLast? = some terminator) ∧ terminator ∉ line ∧
    (after = [] ∨ after.head? = some terminator)

/-- The pieces between line feeds. -/
def octetPieces (octets : List UInt8) : List (List UInt8) := octets.splitOnP (· == terminator)

/-- The lines that cutting at line feeds finds: an empty last piece is none. -/
def octetLines (octets : List UInt8) : List (List UInt8) :=
  if (octetPieces octets).getLast? = some [] then (octetPieces octets).dropLast
  else octetPieces octets

theorem octetPieces_terminator_cons (rest : List UInt8) :
    octetPieces (terminator :: rest) = [] :: octetPieces rest := by
  rw [octetPieces, List.splitOnP_cons_eq_if_modifyHead]
  rfl

theorem octetPieces_cons_of_ne {o : UInt8} (h : o ≠ terminator) (rest : List UInt8) :
    octetPieces (o :: rest) = (octetPieces rest).modifyHead (o :: ·) := by
  rw [octetPieces, List.splitOnP_cons_eq_if_modifyHead, beq_eq_false_iff_ne.2 h]
  rfl

theorem octetPieces_ne_nil (octets : List UInt8) : octetPieces octets ≠ [] :=
  List.splitOnP_ne_nil _ _

/-- Line feeds are one fewer than the pieces between them. -/
theorem length_octetPieces (octets : List UInt8) :
    (octetPieces octets).length = octets.count terminator + 1 := by
  induction octets with
  | nil => rfl
  | cons o rest ih =>
    by_cases h : o = terminator
    · rw [h, octetPieces_terminator_cons, List.length_cons, ih, List.count_cons_self]
    · rw [octetPieces_cons_of_ne h, List.length_modifyHead, ih,
        List.count_cons_of_ne (by simpa using h)]

/-- The last piece is empty iff a line feed or nothing stands in front of it. -/
theorem getLast?_octetPieces_eq_nil_iff (octets : List UInt8) :
    (octetPieces octets).getLast? = some [] ↔ octets = [] ∨ octets.getLast? = some terminator := by
  induction octets with
  | nil => simp [octetPieces]
  | cons o rest ih =>
    have hne := octetPieces_ne_nil rest
    have hcount := length_octetPieces rest
    obtain ⟨piece, pieces, hp⟩ := List.exists_cons_of_ne_nil hne
    rw [List.getLast?_cons (l := rest)]
    by_cases h : o = terminator
    · obtain ⟨last, hlast⟩ : ∃ last, (octetPieces rest).getLast? = some last :=
        ⟨_, List.getLast?_eq_some_getLast hne⟩
      rw [hlast] at ih
      rw [h, octetPieces_terminator_cons, List.getLast?_cons, hlast, Option.getD_some, ih]
      rcases hl : rest.getLast? with _ | x
      · simp [List.getLast?_eq_none_iff.1 hl]
      · simp [List.ne_nil_of_mem (List.mem_of_getLast? hl)]
    · rw [octetPieces_cons_of_ne h, hp]
      rw [hp] at ih hcount
      rcases List.eq_nil_or_concat pieces with rfl | ⟨init, last, rfl⟩
      · -- a single piece that `o` now stands in: nothing ends a line
        have hnot : terminator ∉ rest := by
          rw [← List.count_eq_zero]
          simpa using hcount.symm
        have hlast : rest.getLast? ≠ some terminator := fun hl => hnot (List.mem_of_getLast? hl)
        rcases hl : rest.getLast? with _ | x
        · simp [h]
        · simpa [hl] using hlast
      · have hrest : rest ≠ [] := by
          rintro rfl
          simp at hcount
        rcases hl : rest.getLast? with _ | x
        · exact absurd (List.getLast?_eq_none_iff.1 hl) hrest
        · simpa [hl, hrest, List.getLast?_cons] using ih

/-- The octets of lines that are ended. -/
def endedLines (lines : List (List UInt8)) : List UInt8 := lines.flatMap (· ++ [terminator])

theorem endedLines_cons (line : List UInt8) (lines : List (List UInt8)) :
    endedLines (line :: lines) = line ++ [terminator] ++ endedLines lines := rfl

theorem endedLines_eq_nil_or (lines : List (List UInt8)) :
    endedLines lines = [] ∨ (endedLines lines).getLast? = some terminator := by
  rcases List.eq_nil_or_concat lines with rfl | ⟨init, line, rfl⟩
  · exact .inl rfl
  · right
    rw [endedLines, List.concat_eq_append, List.flatMap_append, List.flatMap_singleton,
      ← List.append_assoc, List.getLast?_concat]

theorem count_endedLines {lines : List (List UInt8)} (h : ∀ line ∈ lines, terminator ∉ line) :
    (endedLines lines).count terminator = lines.length := by
  induction lines with
  | nil => rfl
  | cons line lines ih =>
    obtain ⟨hline, hlines⟩ := List.forall_mem_cons.1 h
    rw [endedLines_cons, List.count_append, List.count_append, List.count_eq_zero.2 hline,
      List.count_singleton_self, ih hlines, List.length_cons]
    omega

/-- Pieces that line feeds stand between, from one of them on. -/
theorem intercalate_cons_eq_flatMap (piece : List UInt8) (back : List (List UInt8)) :
    [terminator].intercalate (piece :: back) = piece ++ back.flatMap (terminator :: ·) := by
  induction back generalizing piece with
  | nil => rw [List.intercalate_singleton, List.flatMap_nil, List.append_nil]
  | cons next back ih =>
    rw [List.intercalate_cons_cons, ih, List.flatMap_cons, List.append_assoc]
    rfl

/-- Octets are the pieces between their line feeds, so those in front of a piece are ended. -/
theorem eq_of_octetPieces {octets piece : List UInt8} {front back : List (List UInt8)}
    (h : octetPieces octets = front ++ piece :: back) :
    octets = endedLines front ++ piece ++ back.flatMap (terminator :: ·) := by
  have hjoin : [terminator].intercalate (front ++ piece :: back) = octets := by
    rw [← h, octetPieces, ← List.splitOn_eq_splitOnP, List.intercalate_splitOn]
  rw [← hjoin]
  clear hjoin h
  induction front with
  | nil => exact intercalate_cons_eq_flatMap piece back
  | cons line front ih =>
    rw [List.cons_append, List.intercalate_cons_of_ne_nil (by simp), ih, endedLines_cons]
    simp only [List.append_assoc]

theorem terminator_notMem_of_mem_octetPieces {octets piece : List UInt8}
    (h : piece ∈ octetPieces octets) : terminator ∉ piece := by
  intro hmem
  have hne := notMem_of_mem_splitOnP h terminator hmem
  rw [beq_self_eq_true] at hne
  cases hne

/-- The lines are the pieces, without the last one if it is empty. -/
theorem exists_octetPieces_eq (octets : List UInt8) :
    ∃ rest, octetPieces octets = octetLines octets ++ rest := by
  unfold octetLines
  split
  · rename_i hlast
    obtain ⟨init, hinit⟩ := List.getLast?_eq_some_iff.1 hlast
    exact ⟨[[]], by rw [hinit, List.dropLast_concat]⟩
  · exact ⟨[], by rw [List.append_nil]⟩

/-- **A line behind the lines in front of it**: as many line feeds as lines stand there, and none
within the line. -/
theorem exists_line_append {octets line : List UInt8} {front back : List (List UInt8)}
    (h : octetLines octets = front ++ line :: back) :
    ∃ after, octets = endedLines front ++ line ++ after ∧
      (after = [] ∨ after.head? = some terminator) ∧
      (endedLines front).count terminator = front.length ∧ terminator ∉ line := by
  obtain ⟨rest, hpieces⟩ := exists_octetPieces_eq octets
  rw [h, List.append_assoc, List.cons_append] at hpieces
  have hnot : ∀ piece ∈ front ++ line :: (back ++ rest), terminator ∉ piece := by
    intro piece hpiece
    rw [← hpieces] at hpiece
    exact terminator_notMem_of_mem_octetPieces hpiece
  rw [List.forall_mem_append, List.forall_mem_cons] at hnot
  refine ⟨_, eq_of_octetPieces hpieces, ?_, count_endedLines hnot.1, hnot.2.1⟩
  cases back ++ rest with
  | nil => exact .inl rfl
  | cons next others => exact .inr rfl

/-- Each line that cutting finds is the line of its number. -/
theorem isLine_octetLines {octets : List UInt8} {i : Nat} {line : List UInt8}
    (h : (octetLines octets)[i]? = some line) : IsLine octets i line := by
  obtain ⟨hi, rfl⟩ := List.getElem?_eq_some_iff.1 h
  have hlines : octetLines octets = (octetLines octets).take i ++
      (octetLines octets)[i] :: (octetLines octets).drop (i + 1) := by
    rw [List.getElem_cons_drop, List.take_append_drop]
  obtain ⟨after, heq, hafter, hcount, hnot⟩ := exists_line_append hlines
  rw [List.length_take, Nat.min_eq_left (Nat.le_of_lt hi)] at hcount
  exact ⟨_, after, heq, hcount, endedLines_eq_nil_or _, hnot, hafter⟩

/-- Every line feed ends a line, and what stands behind the last one is a line unless it is
empty. -/
theorem length_octetLines (octets : List UInt8) :
    (octetLines octets).length = octets.count terminator +
      if octets ≠ [] ∧ octets.getLast? ≠ some terminator then 1 else 0 := by
  have hiff := getLast?_octetPieces_eq_nil_iff octets
  unfold octetLines
  by_cases h : octets = [] ∨ octets.getLast? = some terminator
  · rw [if_pos (hiff.2 h), List.length_dropLast, length_octetPieces,
      if_neg fun hboth => not_or.2 hboth h]
    rfl
  · rw [if_neg fun hlast => h (hiff.1 hlast), length_octetPieces, if_pos (not_or.1 h)]

/-! ## Runs within lines -/

/-- Cutting at blanks cuts at line feeds too, so it may as well be done piece by piece. -/
theorem splitOnP_isBlankOctet_eq_flatMap (octets : List UInt8) :
    octets.splitOnP isBlankOctet = (octetPieces octets).flatMap (·.splitOnP isBlankOctet) := by
  induction octets with
  | nil => rfl
  | cons o rest ih =>
    rw [List.splitOnP_cons_eq_if_modifyHead, ih]
    by_cases h : o = terminator
    · rw [h, octetPieces_terminator_cons, isBlankOctet_terminator]
      rfl
    · obtain ⟨first, pieces, hp⟩ := List.exists_cons_of_ne_nil (octetPieces_ne_nil rest)
      rw [octetPieces_cons_of_ne h, hp, List.modifyHead_cons, List.flatMap_cons, List.flatMap_cons,
        List.splitOnP_cons_eq_if_modifyHead]
      by_cases hb : isBlankOctet o = true
      · rw [if_pos hb, if_pos hb]
        rfl
      · rw [if_neg hb, if_neg hb]
        obtain ⟨x, xs, hx⟩ := List.exists_cons_of_ne_nil (List.splitOnP_ne_nil isBlankOctet first)
        rw [hx]
        rfl

/-- No run goes across the end of a line: the runs of the lines, one line after the other, are the
runs of the whole. -/
theorem flatMap_octetRuns_octetLines (octets : List UInt8) :
    (octetLines octets).flatMap octetRuns = octetRuns octets := by
  have hpieces : (octetPieces octets).flatMap octetRuns = octetRuns octets := by
    rw [octetRuns, splitOnP_isBlankOctet_eq_flatMap, List.filter_flatMap]
    rfl
  unfold octetLines
  split
  · rename_i hlast
    obtain ⟨init, hinit⟩ := List.getLast?_eq_some_iff.1 hlast
    rw [← hpieces, hinit, List.dropLast_concat, List.flatMap_append]
    simp [octetRuns]
  · exact hpieces

end PartyInputs.Table
