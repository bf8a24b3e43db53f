import PartyInputs.Proofs.Command.Options

/-!
# Command lines that are accepted

A command that produces files accepts all lines on which its options are given in any order and in
any of the ways there are, none of them twice, and no more than one sign.

* `Form.Offers`: words that give one option to a form.
* `Reading.foldlM_offers`, `Reading.foldlM_flatten`: reading the words of one option, and of several.
* `Form.exists_read_of_offers`: what is read fits the form.
* `Invocation.exists_generate`: **such lines are accepted**, and give what they ask for.
-/

namespace PartyInputs

open List (Forall₂)

namespace Command

/-- The words give the option of this name to the form. A value that starts with a dash is an
integer if it has a word of its own. -/
inductive Form.Offers (form : Form) : String → List String → Prop where
  | switch {name : String} :
      ⟨name, .nothing⟩ ∈ form.options → form.Offers name [optionWord name]
  | joined {name value : String} {takes : Takes} {setting : Setting} :
      ⟨name, takes⟩ ∈ form.options → takes.setting? value = some setting →
      form.Offers name [assignment name value]
  | apart {name value : String} {takes : Takes} {setting : Setting} :
      ⟨name, takes⟩ ∈ form.options → takes.setting? value = some setting →
      (IsDashed value → takes = .integer) → form.Offers name [optionWord name, value]

theorem Form.IsProper.find?_eq {form : Form} (h : form.IsProper) {o : OptionForm}
    (ho : o ∈ form.options) : form.options.find? (·.name = o.name) = some o := by
  rcases hfind : form.options.find? (·.name = o.name) with _ | o'
  · have hno := List.find?_eq_none.1 hfind o ho
    simp at hno
  · have hname : o'.name = o.name := by simpa using List.find?_some hfind
    obtain rfl := h.unique (List.mem_of_find?_eq_some hfind) ho hname
    exact hfind

theorem Given.add_of_fresh {g : Given} {name : String} (h : ¬ g.has name) (setting : Setting) :
    g.add name setting = .ok { g with settings := (name, setting) :: g.settings } := by
  rw [add, if_neg h]

/-! ## The words of one option -/

namespace Reading

variable {form : Form} {r : Reading} {name value : String} {takes : Takes} {setting : Setting}

theorem addValue_eq_set (hsetting : takes.setting? value = some setting)
    (hfresh : ¬ r.given.has name) : r.addValue ⟨name, takes⟩ value = .ok (r.set name setting) := by
  simp only [addValue, hsetting, Given.add_of_fresh hfresh]
  rfl

theorem addOption_name (hform : form.IsProper) (ho : ⟨name, takes⟩ ∈ form.options) :
    r.addOption form name.toList =
      if takes = .nothing then (r.given.add name .on).map fun given => { r with given }
      else .ok { r with due := some ⟨name, takes⟩ } := by
  have hspan := span_name (hform.no_equals _ ho) []
  rw [List.append_nil, List.takeWhile_nil, List.append_nil, List.dropWhile_nil] at hspan
  have hfind := hform.find?_eq ho
  unfold addOption
  rw [hspan.1, hspan.2, String.ofList_toList]
  simp only [hfind]

theorem addOption_joined (hform : form.IsProper) (ho : ⟨name, takes⟩ ∈ form.options)
    (hsetting : takes.setting? value = some setting) (hfresh : ¬ r.given.has name) :
    r.addOption form (name.toList ++ '=' :: value.toList) = .ok (r.set name setting) := by
  have hspan := span_name (hform.no_equals _ ho) ('=' :: value.toList)
  rw [List.takeWhile_cons_of_neg (by simp), List.append_nil,
    List.dropWhile_cons_of_neg (by simp)] at hspan
  have hfind := hform.find?_eq ho
  unfold addOption
  rw [hspan.1, hspan.2, String.ofList_toList]
  simp only [hfind, String.ofList_toList, addValue_eq_set hsetting hfresh]

theorem addWord_eq_addOption {word : String} {body : List Char} (hliteral : r.literal = false)
    (hdue : r.due = none) (hword : word.toList = '-' :: '-' :: body) (hbody : body ≠ []) :
    addWord form r word = r.addOption form body := by
  obtain ⟨c, letters, rfl⟩ := List.exists_cons_of_ne_nil hbody
  unfold addWord
  rw [if_neg (by simp [hliteral])]
  simp only [hword, hdue]

theorem addWord_eq_addValue {o : OptionForm} (hliteral : r.literal = false)
    (hdue : r.due = some o) (hvalue : IsDashed value → o.takes = .integer) :
    addWord form r value = r.addValue o value := by
  unfold addWord
  rw [if_neg (by simp [hliteral]), hdue]
  by_cases hdashed : IsDashed value
  · obtain ⟨c, letters, hword⟩ := isDashed_iff.1 hdashed
    simp only [hword, if_pos (hvalue hdashed)]
  · have hplain : ∀ c letters, value.toList ≠ '-' :: c :: letters :=
      fun c letters hword => hdashed (isDashed_iff.2 ⟨c, letters, hword⟩)
    split <;> simp_all

/-- **The words of one option** are read, if the option was not given before. -/
theorem foldlM_offers (hform : form.IsProper) {words : List String} (h : form.Offers name words)
    (hliteral : r.literal = false) (hdue : r.due = none) (hfresh : ¬ r.given.has name) :
    ∃ setting, words.foldlM (addWord form) r = .ok (r.set name setting) := by
  cases h with
  | switch ho =>
    refine ⟨.on, ?_⟩
    rw [List.foldlM_cons, addWord_eq_addOption hliteral hdue (toList_optionWord name)
      (by simpa using hform.nonempty _ ho), addOption_name hform ho, if_pos rfl,
      Given.add_of_fresh hfresh, set, ← hdue]
    rfl
  | @joined value _ setting ho hsetting =>
    refine ⟨setting, ?_⟩
    rw [List.foldlM_cons, addWord_eq_addOption hliteral hdue (toList_assignment name value)
      (by simp), addOption_joined hform ho hsetting hfresh]
    rfl
  | @apart value takes setting ho hsetting hdashed =>
    refine ⟨setting, ?_⟩
    have hname : addWord form r (optionWord name) = .ok { r with due := some ⟨name, takes⟩ } := by
      rw [addWord_eq_addOption hliteral hdue (toList_optionWord name)
        (by simpa using hform.nonempty _ ho),
        addOption_name hform ho, if_neg (Takes.ne_nothing_of_setting? hsetting)]
    have hvalue : addWord form { r with due := some ⟨name, takes⟩ } value =
        .ok (r.set name setting) :=
      (addWord_eq_addValue (r := { r with due := some ⟨name, takes⟩ }) hliteral rfl hdashed).trans
        (addValue_eq_set hsetting hfresh)
    exact bind_eq_ok_iff.2 ⟨_, hname, bind_eq_ok_iff.2 ⟨_, hvalue, rfl⟩⟩

/-! ## The words of several options -/

/-- **The words of several options** are read, if no option is given twice. -/
theorem foldlM_flatten (hform : form.IsProper) {names : List String} {groups : List (List String)}
    (h : Forall₂ form.Offers names groups) (hnodup : names.Nodup) (hliteral : r.literal = false)
    (hdue : r.due = none) (hfresh : ∀ name ∈ names, ¬ r.given.has name) :
    ∃ r', groups.flatten.foldlM (addWord form) r = .ok r' ∧ r'.due = none ∧
      r'.given.operands = r.given.operands ∧ r'.given.verbosity = r.given.verbosity ∧
      ∀ name, r'.given.has name ↔ r.given.has name ∨ name ∈ names := by
  induction h generalizing r with
  | nil => exact ⟨r, rfl, hdue, rfl, rfl, by simp⟩
  | @cons name words names groups hwords _ ih =>
    obtain ⟨hnotMem, hnodup⟩ := List.nodup_cons.1 hnodup
    obtain ⟨hname, hnames⟩ := List.forall_mem_cons.1 hfresh
    obtain ⟨setting, hread⟩ := foldlM_offers hform hwords hliteral hdue hname
    have hlater : ∀ later ∈ names, ¬ (r.set name setting).given.has later := by
      intro later hmem
      rw [has_set_iff, not_or]
      exact ⟨hnames later hmem, (ne_of_mem_of_not_mem hmem hnotMem).symm⟩
    obtain ⟨r', hfold, hdue', hoperands, hverbosity, hhas⟩ :=
      ih (r := r.set name setting) hnodup hliteral rfl hlater
    refine ⟨r', ?_, hdue', hoperands, hverbosity, ?_⟩
    · rw [List.flatten_cons, List.foldlM_append, hread]
      exact hfold
    · intro other
      rw [hhas, has_set_iff, List.mem_cons, or_assoc, eq_comm (a := other)]

end Reading

/-- **What is read fits the form**, if that wants no operands and the options neither exclude nor miss
each other. -/
theorem Form.exists_read_of_offers {form : Form} (hform : form.IsProper) {names : List String}
    {groups : List (List String)} (h : Forall₂ form.Offers names groups) (hnodup : names.Nodup)
    (hoperands : form.operands = 0)
    (hconflicts : ∀ a b, (a, b) ∈ form.conflicts → ¬ (a ∈ names ∧ b ∈ names))
    (hrequires : ∀ a b, (a, b) ∈ form.requires → a ∈ names → b ∈ names) :
    ∃ g, form.read groups.flatten = .ok g ∧ g.verbosity = 0 := by
  obtain ⟨r, hfold, hdue, hnone, hverbosity, hhas⟩ :=
    Reading.foldlM_flatten hform h (r := {}) hnodup rfl rfl (by simp [Given.has])
  have hgiven : ∀ name, r.given.has name ↔ name ∈ names := by
    intro name
    rw [hhas]
    simp [Given.has]
  have hadmits : form.admits r.given := by
    unfold admits
    rw [Bool.and_eq_true, Bool.and_eq_true, List.all_eq_true, List.all_eq_true, hnone, hoperands]
    refine ⟨⟨rfl, ?_⟩, ?_⟩
    · rintro ⟨a, b⟩ hpair
      have hnot := hconflicts a b hpair
      rw [← hgiven, ← hgiven, not_and_or] at hnot
      simpa using hnot
    · rintro ⟨a, b⟩ hpair
      have hboth := hrequires a b hpair
      rw [← hgiven, ← hgiven, imp_iff_not_or] at hboth
      simpa using hboth
  refine ⟨r.given, ?_, hverbosity⟩
  unfold read
  refine bind_eq_ok_iff.2 ⟨r, hfold, ?_⟩
  dsimp only
  rw [if_neg (by simp [hdue, hadmits])]
  rfl

end Command

/-! ## Command lines -/

open Command

/-- **Lines that give options to a command that produces files are accepted**, and what comes of them
is what they ask for. -/
theorem Invocation.exists_generate {workload : Workload} {names : List String}
    {groups : List (List String)} (h : Forall₂ (generateForm workload).Offers names groups)
    (hnodup : names.Nodup) (hsigns : ¬ ("signed" ∈ names ∧ "unsigned" ∈ names)) :
    ∃ o, ofWords (workload.name :: groups.flatten) = .task 0 (.generate o) ∧
      o.AskedBy (workload.name :: groups.flatten) := by
  have hconflicts : ∀ a b, (a, b) ∈ (generateForm workload).conflicts →
      ¬ (a ∈ names ∧ b ∈ names) := by
    intro a b hpair
    cases List.mem_singleton.1 hpair
    exact hsigns
  obtain ⟨g, hread, hverbosity⟩ := Form.exists_read_of_offers (isProper_generateForm workload) h
    hnodup rfl hconflicts (by simp [generateForm])
  have htask : ofWords (workload.name :: groups.flatten) =
      .task 0 (.generate (generateOptions workload g)) := by
    unfold ofWords
    cases workload <;> simp [Workload.name, readFrom, task?, hread, Except.map, hverbosity]
  exact ⟨_, htask, generate_askedBy htask⟩

end PartyInputs
