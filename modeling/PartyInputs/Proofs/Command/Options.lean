import PartyInputs.Proofs.Command.Reading

/-!
# What a command line asks for

The options that come of a command line are those that its words ask for: the first word that is no
option names the command, each option has the value that the words give to it or the one that it has
otherwise, and the operand is the path of the file.

* `GenerateOptions.AskedBy`: **the words ask for the files of a workload**, and for which ones; what
  they ask for is one thing (`GenerateOptions.AskedBy.unique`).
* `InspectOptions.AskedBy`: the words ask for an inspection (`InspectOptions.AskedBy.unique`).
* `Command.readFrom_eq_task`: a task comes from a command and the words behind it, and the words in
  front of it only ask for more detail.
* `Form.Gives.chooses_integer`, `Form.Gives.chooses_text`: integers and texts that were given.
* `Invocation.generate_askedBy`, `Invocation.inspect_askedBy`: **a command line gives what its words
  ask for**.
-/

namespace PartyInputs

open Command

/-! ## What is asked for -/

/-- The words ask for these sizes: the command names the workload, and the sizes are those that its
options give. -/
def Sizes.AskedBy (words : List String) : Sizes Int64 → Prop
  | .signTest length =>
    command? words = some "ltz" ∧ Chooses (Assigns words "len") SaysInteger 1024 length
  | .convolution rows cols kernel =>
    command? words = some "conv" ∧ Chooses (Assigns words "a-rows") SaysInteger 8 rows ∧
      Chooses (Assigns words "a-cols") SaysInteger 8 cols ∧
      Chooses (Assigns words "w-dim") SaysInteger 2 kernel
  | .linearLayer n =>
    command? words = some "linear" ∧ Chooses (Assigns words "n") SaysInteger 2048 n

/-- The words ask for these options. A sign test has no file of party 1. -/
structure GenerateOptions.AskedBy (words : List String) (o : GenerateOptions) : Prop where
  sizes : o.sizes.AskedBy words
  seed : Chooses (Assigns words "seed") SaysInteger 42 o.seed
  bits : Chooses (Assigns words "bits") SaysInteger 16 o.bits
  directory : Chooses (Assigns words "dir") (· = ·) "Player-Data" o.directory
  first : Chooses (Assigns words "p0-file") (· = ·) "Input-P0-0" o.first
  second :
    if o.sizes.workload = .signTest then o.second = none
    else ∃ name ∈ o.second, Chooses (Assigns words "p1-file") (· = ·) "Input-P1-0" name
  signed : o.signed ↔ "--signed" ∈ words
  unsigned : o.unsigned ↔ "--unsigned" ∈ words
  overviewPath :
    Chooses (Assigns words "summary-json") (fun value path => path = some value) none o.overviewPath

/-- The word that asks for a format. -/
def InspectionFormat.word : InspectionFormat → String
  | .json => "json"
  | .pretty => "pretty"

/-- The words ask for the inspection of a file. -/
structure InspectOptions.AskedBy (words : List String) (o : InspectOptions) : Prop where
  command : command? words = some "inspect"
  path : operandWords ["bits", "format"] false (arguments words) = [o.path]
  bits :
    Chooses (Assigns words "bits") (fun value bits => ∃ i ∈ bits, SaysInteger value i) none o.bits
  signed : o.signed ↔ "--signed" ∈ optionWords words
  format : Chooses (Assigns words "format") (fun value format => value = format.word) .pretty o.format

/-! ## One thing is asked for -/

namespace Command.Chooses

variable {Given : String → Prop}

theorem unique_integer {otherwise i j : Int64} (h : Chooses Given SaysInteger otherwise i)
    (h' : Chooses Given SaysInteger otherwise j) : i = j :=
  h.unique (fun _ _ _ hi hj => hi.unique hj) h'

theorem unique_text {otherwise text text' : String} (h : Chooses Given (· = ·) otherwise text)
    (h' : Chooses Given (· = ·) otherwise text') : text = text' :=
  h.unique (fun _ _ _ ht ht' => ht.symm.trans ht') h'

end Command.Chooses

theorem Sizes.AskedBy.unique {words : List String} {s s' : Sizes Int64} (h : s.AskedBy words)
    (h' : s'.AskedBy words) : s = s' := by
  -- the command tells the workload
  have hcommand : ∀ name name', command? words = some name → command? words = some name' →
      name = name' := by
    intro name name' hname hname'
    exact Option.some.inj (hname.symm.trans hname')
  cases s with
  | signTest length =>
    cases s' with
    | signTest length' => rw [h.2.unique_integer h'.2]
    | convolution => exact absurd (hcommand _ _ h.1 h'.1) (by decide)
    | linearLayer => exact absurd (hcommand _ _ h.1 h'.1) (by decide)
  | convolution rows cols kernel =>
    cases s' with
    | signTest => exact absurd (hcommand _ _ h.1 h'.1) (by decide)
    | convolution rows' cols' kernel' =>
      obtain ⟨-, hrows, hcols, hkernel⟩ := h
      obtain ⟨-, hrows', hcols', hkernel'⟩ := h'
      rw [hrows.unique_integer hrows', hcols.unique_integer hcols',
        hkernel.unique_integer hkernel']
    | linearLayer => exact absurd (hcommand _ _ h.1 h'.1) (by decide)
  | linearLayer n =>
    cases s' with
    | signTest => exact absurd (hcommand _ _ h.1 h'.1) (by decide)
    | convolution => exact absurd (hcommand _ _ h.1 h'.1) (by decide)
    | linearLayer n' => rw [h.2.unique_integer h'.2]

/-- **What the words ask for is one thing.** -/
theorem GenerateOptions.AskedBy.unique {words : List String} {o o' : GenerateOptions}
    (h : o.AskedBy words) (h' : o'.AskedBy words) : o = o' := by
  have hsizes := h.sizes.unique h'.sizes
  have hsecond : o.second = o'.second := by
    have hhas := h.second
    have hhas' := h'.second
    rw [← hsizes] at hhas'
    split at hhas
    · rename_i hworkload
      rw [if_pos hworkload] at hhas'
      rw [hhas, hhas']
    · rename_i hworkload
      rw [if_neg hworkload] at hhas'
      obtain ⟨name, hname, hchooses⟩ := hhas
      obtain ⟨name', hname', hchooses'⟩ := hhas'
      rw [hname, hname', hchooses.unique_text hchooses']
  have hpath := h.overviewPath.unique (fun _ _ _ hp hp' => hp.trans hp'.symm) h'.overviewPath
  obtain ⟨sizes, seed, bits, directory, first, second, signed, unsigned, path⟩ := o
  obtain ⟨sizes', seed', bits', directory', first', second', signed', unsigned', path'⟩ := o'
  congr 1
  · exact h.seed.unique_integer h'.seed
  · exact h.bits.unique_integer h'.bits
  · exact h.directory.unique_text h'.directory
  · exact h.first.unique_text h'.first
  · exact Bool.eq_iff_iff.2 (h.signed.trans h'.signed.symm)
  · exact Bool.eq_iff_iff.2 (h.unsigned.trans h'.unsigned.symm)

theorem InspectOptions.AskedBy.unique {words : List String} {o o' : InspectOptions}
    (h : o.AskedBy words) (h' : o'.AskedBy words) : o = o' := by
  have hpath : o.path = o'.path := by simpa using h.path.symm.trans h'.path
  have hbits := h.bits.unique (fun _ _ _ => by
    rintro ⟨i, hi, hsaid⟩ ⟨j, hj, hsaid'⟩
    rw [hi, hj, hsaid.unique hsaid']) h'.bits
  have hformat := h.format.unique (fun _ format format' => by
    rintro rfl hword
    revert hword
    cases format <;> cases format' <;> decide) h'.format
  obtain ⟨path, bits, signed, format⟩ := o
  obtain ⟨path', bits', signed', format'⟩ := o'
  congr 1
  exact Bool.eq_iff_iff.2 (h.signed.trans h'.signed.symm)

/-! ## Command lines -/

namespace Command

/-- Letters in front of a command start with one that asks for more detail. -/
theorem readLetters_eq_ok {v v' : Nat} {c : Char} {letters : List Char}
    (h : readLetters v (c :: letters) = .ok v') : c = 'v' := by
  unfold readLetters at h
  split at h
  · rename_i heq
    cases heq
  · rename_i heq
    cases heq
    rfl
  · cases h
  · cases h
  · cases h

/-- Letters in front of a command are no command. -/
theorem readLetters_ne_task (v w : Nat) (task : Task) (letters : List Char) :
    readLetters v letters ≠ .error (.task w task) := by
  fun_induction readLetters v letters with
  | case1 => simp
  | case2 v letters ih => exact ih
  | case3 => simp
  | case4 => simp
  | case5 => simp

/-- Help is no command. -/
theorem helpAbout_ne_task (w : Nat) (task : Task) (words : List String) :
    helpAbout words ≠ .task w task := by
  unfold helpAbout
  split
  · simp
  · split <;> simp
  · simp

/-- On a command line `name` is the command and `rest` stands behind it. The words in front of it
only ask for more detail. -/
inductive Splits : List String → String → List String → Prop where
  | here {name : String} {rest : List String} :
      ¬ IsDashed name → Splits (name :: rest) name rest
  | detail {word : String} {words : List String} {name : String} {rest : List String} :
      AsksForDetail word → Splits words name rest → Splits (word :: words) name rest

namespace Splits

variable {words rest : List String} {name option : String}

theorem command?_eq (h : Splits words name rest) : command? words = some name := by
  induction h with
  | here hplain => simp [command?, hplain]
  | detail hword _ ih => simpa [command?, hword.isDashed] using ih

theorem arguments_eq (h : Splits words name rest) : arguments words = rest := by
  induction h with
  | here hplain => simp [arguments, hplain]
  | detail hword _ ih => simpa [arguments, hword.isDashed] using ih

theorem assigns_iff (h : Splits words name rest) (hne : option ≠ "verbose") {value : String} :
    Assigns words option value ↔ Assigns rest option value := by
  induction h with
  | here hplain => exact assigns_cons_of_silent (silent_of_not_isDashed hplain)
  | detail hword _ ih => rw [assigns_cons_of_silent (hword.silent (hword.ne_optionWord hne)), ih]

theorem mem_iff (h : Splits words name rest) (hne : option ≠ "verbose") :
    optionWord option ∈ words ↔ optionWord option ∈ rest := by
  induction h with
  | @here name _ hplain =>
    have hsilent : Silent name option := silent_of_not_isDashed hplain
    simp [hsilent.ne_optionWord.symm]
  | detail hword _ ih => simp [(hword.ne_optionWord hne).symm, ih]

theorem mem_optionWords_iff (h : Splits words name rest) (hne : option ≠ "verbose") :
    optionWord option ∈ optionWords words ↔ optionWord option ∈ optionWords rest := by
  induction h with
  | @here name _ hplain =>
    have hsilent : Silent name option := silent_of_not_isDashed hplain
    simp [optionWords_cons hsilent.ne_dashes, hsilent.ne_optionWord.symm]
  | detail hword _ ih =>
    simp [optionWords_cons hword.ne_dashes, (hword.ne_optionWord hne).symm, ih]

end Splits

/-- **A task comes from a command** and the words behind it. -/
theorem readFrom_eq_task {v w : Nat} {words : List String} {task : Task}
    (h : readFrom v words = .task w task) :
    ∃ name rest own, Splits words name rest ∧ task? name rest = some (.ok (own, task)) := by
  fun_induction readFrom v words with
  | case1 => cases h
  | case2 => cases h
  | case3 => cases h
  | case4 v words ih =>
    obtain ⟨name, rest, own, hsplits, htask⟩ := ih h
    exact ⟨name, rest, own, .detail (.inl rfl) hsplits, htask⟩
  | case5 v words => exact absurd h (helpAbout_ne_task w task words)
  | case6 v word words _ _ _ _ c letters hword v' hletters ih =>
    obtain ⟨name, rest, own, hsplits, htask⟩ := ih h
    obtain rfl := readLetters_eq_ok hletters
    exact ⟨name, rest, own, .detail (.inr ⟨letters, hword⟩) hsplits, htask⟩
  | case7 v word words _ _ _ _ c letters hword invocation hletters =>
    rw [h] at hletters
    exact absurd hletters (readLetters_ne_task _ _ _ _)
  | case8 v word words _ _ _ _ own task' htask hdash =>
    cases h
    refine ⟨word, words, own, .here ?_, htask⟩
    rw [isDashed_iff]
    rintro ⟨c, letters, hword⟩
    exact hdash c letters hword
  | case9 => cases h
  | case10 => cases h
  | case11 => cases h

/-! ## What a command was given -/

/-- The option takes a text, of whatever kind. -/
def Takes.IsText (takes : Takes) : Prop := takes ≠ .nothing ∧ takes ≠ .integer

instance (takes : Takes) : Decidable takes.IsText := inferInstanceAs (Decidable (_ ∧ _))

theorem Takes.IsText.setting_eq_text {takes : Takes} (h : takes.IsText) {value : String}
    {setting : Setting} (hsetting : takes.setting? value = some setting) :
    setting = .text value := by
  unfold setting? at hsetting
  cases takes with
  | nothing => exact absurd rfl h.1
  | integer => exact absurd rfl h.2
  | text => exact (Option.some.inj hsetting).symm
  | path => simpa [eq_comm] using (Option.ite_none_left_eq_some.1 hsetting).2
  | oneOf names => simpa [eq_comm] using (Option.ite_none_right_eq_some.1 hsetting).2

/-- On a command line `name` is the command, and what stands behind it gives `g` to its form. -/
structure Form.Gives (form : Form) (words : List String) (name : String) (g : Given) : Prop where
  proper : form.IsProper
  exists_rest : ∃ rest, Splits words name rest ∧ form.read rest = .ok g

namespace Form.Gives

variable {form : Form} {words : List String} {command name : String} {g : Given}

theorem command?_eq (h : form.Gives words command g) : command? words = some command := by
  obtain ⟨rest, hsplits, -⟩ := h.exists_rest
  exact hsplits.command?_eq

/-- **The setting of an option** is what any value makes of it that the words give it. -/
theorem chooses (h : form.Gives words command g) {o : OptionForm} (ho : o ∈ form.options)
    (htakes : o.takes ≠ .nothing) :
    Chooses (Assigns words o.name) (Reading.Makes o) none (g.settings.lookup o.name) := by
  obtain ⟨rest, hsplits, hread⟩ := h.exists_rest
  exact (chooses_of_read h.proper ho htakes hread).congr
    fun value => (hsplits.assigns_iff (h.proper.ne_verbose o ho)).symm

theorem chooses_integer? (h : form.Gives words command g)
    (ho : ⟨name, .integer⟩ ∈ form.options) :
    Chooses (Assigns words name) (fun value found => ∃ i ∈ found, SaysInteger value i) none
      (g.integer? name) := by
  obtain ⟨hgiven, hmissing⟩ := h.chooses ho (by simp)
  unfold Given.integer?
  refine ⟨?_, fun hno => by rw [hmissing hno]⟩
  intro value hvalue
  obtain ⟨hsome, hmakes⟩ := hgiven value hvalue
  rw [Takes.setting?] at hmakes
  rw [← hmakes] at hsome ⊢
  rcases hint : Text.Decimal.int64? value.toList with _ | i
  · simp [hint] at hsome
  · exact ⟨i, rfl, int64?_eq_some_iff_saysInteger.1 hint⟩

/-- **An integer that was given** is the one that its word says. -/
theorem chooses_integer (h : form.Gives words command g) (ho : ⟨name, .integer⟩ ∈ form.options)
    (otherwise : Int64) :
    Chooses (Assigns words name) SaysInteger otherwise (g.integer name otherwise) := by
  have hor : g.integer name otherwise = (g.integer? name).getD otherwise := by
    unfold Given.integer Given.integer?
    split <;> rfl
  rw [hor]
  refine (h.chooses_integer? ho).map (·.getD otherwise) ?_
  rintro value _ ⟨i, rfl, hsaid⟩
  exact hsaid

theorem chooses_text? (h : form.Gives words command g) {takes : Takes}
    (ho : ⟨name, takes⟩ ∈ form.options) (htakes : takes.IsText) :
    Chooses (Assigns words name) (fun value found => found = some value) none (g.text? name) := by
  obtain ⟨hgiven, hmissing⟩ := h.chooses ho htakes.1
  unfold Given.text?
  refine ⟨?_, fun hno => by rw [hmissing hno]⟩
  intro value hvalue
  obtain ⟨hsome, hmakes⟩ := hgiven value hvalue
  obtain ⟨setting, hsetting⟩ := Option.ne_none_iff_exists'.1 hsome
  rw [hsetting] at hmakes ⊢
  rw [htakes.setting_eq_text hmakes]

/-- **A text that was given** is the one that stands there. -/
theorem chooses_text (h : form.Gives words command g) {takes : Takes}
    (ho : ⟨name, takes⟩ ∈ form.options) (htakes : takes.IsText) (otherwise : String) :
    Chooses (Assigns words name) (· = ·) otherwise (g.text name otherwise) := by
  refine (h.chooses_text? ho htakes).map (·.getD otherwise) ?_
  rintro value _ rfl
  rfl

/-- **An option that takes nothing was given** iff its word is there. -/
theorem has_iff (h : form.Gives words command g) (ho : ⟨name, .nothing⟩ ∈ form.options) :
    g.has name ↔ optionWord name ∈ optionWords words := by
  obtain ⟨rest, hsplits, hread⟩ := h.exists_rest
  rw [hsplits.mem_optionWords_iff (h.proper.ne_verbose _ ho)]
  exact has_of_read h.proper ho rfl hread

/-- A form without operands leaves nothing to stand behind `--`. -/
theorem has_iff_mem (h : form.Gives words command g) (hoperands : form.operands = 0)
    (ho : ⟨name, .nothing⟩ ∈ form.options) : g.has name ↔ optionWord name ∈ words := by
  obtain ⟨rest, hsplits, hread⟩ := h.exists_rest
  obtain ⟨hnone, hcount⟩ := operands_of_read h.proper hread
  rw [hoperands, List.length_eq_zero_iff] at hcount
  rw [hsplits.mem_iff (h.proper.ne_verbose _ ho),
    ← mem_optionWords_iff (hnone.symm.trans hcount)
      (optionWord_ne_dashes (h.proper.nonempty _ ho))]
  exact has_of_read h.proper ho rfl hread

/-- **The operands** are the words behind the command that are none of an option, and there are as
many as the form wants. -/
theorem operands_eq (h : form.Gives words command g) :
    operandWords form.taking false (arguments words) = g.operands ∧
      g.operands.length = form.operands := by
  obtain ⟨rest, hsplits, hread⟩ := h.exists_rest
  obtain ⟨heq, hcount⟩ := operands_of_read h.proper hread
  rw [hsplits.arguments_eq]
  exact ⟨heq.symm, hcount⟩

end Form.Gives

/-! ## Tasks -/

theorem isProper_generateForm (workload : Workload) : (generateForm workload).IsProper := by
  cases workload <;> exact ⟨by decide, by decide, by decide, by decide⟩

theorem isProper_inspectForm : inspectForm.IsProper :=
  ⟨by decide, by decide, by decide, by decide⟩

/-- The files of a workload are asked for behind its name, by the words of its form. -/
theorem task?_eq_generate {name : String} {words : List String} {own : Nat} {o : GenerateOptions}
    (h : task? name words = some (.ok (own, .generate o))) :
    ∃ workload g, name = workload.name ∧ (generateForm workload).read words = .ok g ∧
      o = generateOptions workload g := by
  have hform : ∀ workload : Workload, (((generateForm workload).read words).map fun g =>
      (g.verbosity, Task.generate (generateOptions workload g))) = .ok (own, .generate o) →
        ∃ g, (generateForm workload).read words = .ok g ∧ o = generateOptions workload g := by
    intro workload hread
    obtain ⟨g, hg, heq⟩ := map_eq_ok_iff.1 hread
    cases heq
    exact ⟨g, hg, rfl⟩
  unfold task? at h
  split at h
  · exact ⟨.signTest, by simpa [Workload.name] using hform .signTest (Option.some.inj h)⟩
  · exact ⟨.convolution, by simpa [Workload.name] using hform .convolution (Option.some.inj h)⟩
  · exact ⟨.linearLayer, by simpa [Workload.name] using hform .linearLayer (Option.some.inj h)⟩
  · obtain ⟨g, -, heq⟩ := map_eq_ok_iff.1 (Option.some.inj h)
    cases heq
  · cases h

/-- An inspection is asked for behind its name, by the words of its form. -/
theorem task?_eq_inspect {name : String} {words : List String} {own : Nat} {o : InspectOptions}
    (h : task? name words = some (.ok (own, .inspect o))) :
    name = "inspect" ∧ ∃ g, inspectForm.read words = .ok g ∧ o = inspectOptions g := by
  have hgenerate : ∀ workload : Workload, (((generateForm workload).read words).map fun g =>
      (g.verbosity, Task.generate (generateOptions workload g))) ≠ .ok (own, .inspect o) := by
    intro workload hread
    obtain ⟨g, -, heq⟩ := map_eq_ok_iff.1 hread
    cases heq
  unfold task? at h
  split at h
  · exact absurd (Option.some.inj h) (hgenerate .signTest)
  · exact absurd (Option.some.inj h) (hgenerate .convolution)
  · exact absurd (Option.some.inj h) (hgenerate .linearLayer)
  · obtain ⟨g, hread, heq⟩ := map_eq_ok_iff.1 (Option.some.inj h)
    cases heq
    exact ⟨rfl, g, hread, rfl⟩
  · cases h

/-- The sizes that were given are those that its words ask for. -/
theorem sizesOf_askedBy {words : List String} {workload : Workload} {g : Given}
    (h : (generateForm workload).Gives words workload.name g) :
    (sizesOf g workload).AskedBy words := by
  cases workload with
  | signTest => exact ⟨h.command?_eq, h.chooses_integer (by decide) 1024⟩
  | convolution =>
    exact ⟨h.command?_eq, h.chooses_integer (by decide) 8, h.chooses_integer (by decide) 8,
      h.chooses_integer (by decide) 2⟩
  | linearLayer => exact ⟨h.command?_eq, h.chooses_integer (by decide) 2048⟩

/-- So is the name of the second file, of the workloads that have one. -/
theorem second_askedBy {words : List String} {workload : Workload} {g : Given}
    (h : (generateForm workload).Gives words workload.name g) :
    if (generateOptions workload g).sizes.workload = .signTest then
      (generateOptions workload g).second = none
    else
      ∃ name ∈ (generateOptions workload g).second,
        Chooses (Assigns words "p1-file") (· = ·) "Input-P1-0" name := by
  have hname : ⟨"p1-file", .text⟩ ∈ (generateForm workload).options →
      Chooses (Assigns words "p1-file") (· = ·) "Input-P1-0" (g.text "p1-file" "Input-P1-0") :=
    fun ho => h.chooses_text ho (by decide) _
  cases workload with
  | signTest => exact rfl
  | convolution => exact ⟨_, rfl, hname (by decide)⟩
  | linearLayer => exact ⟨_, rfl, hname (by decide)⟩

/-- The format that comes of what was given is the one whose word the command line gives. -/
theorem format_askedBy {words : List String} {g : Given}
    (h : inspectForm.Gives words "inspect" g) :
    Chooses (Assigns words "format") (fun value format => value = format.word) .pretty
      (inspectOptions g).format := by
  have ho : ⟨"format", .oneOf ["json", "pretty"]⟩ ∈ inspectForm.options := by decide
  obtain ⟨htext, hnone⟩ := h.chooses_text ho (by decide) "pretty"
  unfold inspectOptions
  refine ⟨?_, fun hno => by rw [hnone hno]; rfl⟩
  intro value hvalue
  -- another word would not have been accepted
  have hmem : value ∈ ["json", "pretty"] := by
    obtain ⟨hsome, hmakes⟩ := (h.chooses ho (by decide)).given value hvalue
    by_contra hnot
    apply hsome
    rw [← hmakes]
    exact if_neg hnot
  rw [← htext value hvalue]
  rcases List.mem_pair.1 hmem with rfl | rfl
  · rfl
  · rfl

end Command

/-! ## Command lines give what they ask for -/

namespace Invocation

variable {words : List String} {verbosity : Nat}

theorem exists_gives_generate {o : GenerateOptions}
    (h : ofWords words = .task verbosity (.generate o)) :
    ∃ workload g, (generateForm workload).Gives words workload.name g ∧
      o = generateOptions workload g := by
  obtain ⟨name, rest, own, hsplits, htask⟩ := readFrom_eq_task h
  obtain ⟨workload, g, rfl, hread, ho⟩ := task?_eq_generate htask
  exact ⟨workload, g, ⟨isProper_generateForm workload, rest, hsplits, hread⟩, ho⟩

theorem exists_gives_inspect {o : InspectOptions}
    (h : ofWords words = .task verbosity (.inspect o)) :
    ∃ g, inspectForm.Gives words "inspect" g ∧ o = inspectOptions g := by
  obtain ⟨name, rest, own, hsplits, htask⟩ := readFrom_eq_task h
  obtain ⟨rfl, g, hread, ho⟩ := task?_eq_inspect htask
  exact ⟨g, ⟨isProper_inspectForm, rest, hsplits, hread⟩, ho⟩

/-- **The options of a command that produces files** are those that its words ask for. -/
theorem generate_askedBy {o : GenerateOptions}
    (h : ofWords words = .task verbosity (.generate o)) : o.AskedBy words := by
  obtain ⟨workload, g, hgives, rfl⟩ := exists_gives_generate h
  have hcommon : ∀ o ∈ commonOptions, o ∈ (generateForm workload).options :=
    fun o ho => List.mem_append_right _ ho
  exact {
    sizes := sizesOf_askedBy hgives
    seed := hgives.chooses_integer (hcommon _ (by decide)) 42
    bits := hgives.chooses_integer (hcommon _ (by decide)) 16
    directory := hgives.chooses_text (hcommon ⟨"dir", .path⟩ (by decide)) (by decide) _
    first := hgives.chooses_text (hcommon ⟨"p0-file", .text⟩ (by decide)) (by decide) _
    second := second_askedBy hgives
    signed := hgives.has_iff_mem rfl (hcommon _ (by decide))
    unsigned := hgives.has_iff_mem rfl (hcommon _ (by decide))
    overviewPath :=
      hgives.chooses_text? (hcommon ⟨"summary-json", .path⟩ (by decide)) (by decide) }

/-- No more than one sign is asked for. -/
theorem generate_not_both {o : GenerateOptions}
    (h : ofWords words = .task verbosity (.generate o)) : ¬ (o.signed ∧ o.unsigned) := by
  obtain ⟨workload, g, ⟨-, rest, -, hread⟩, rfl⟩ := exists_gives_generate h
  exact Form.not_both_of_read hread List.mem_cons_self

/-- **The options of an inspection** are those that the words of its command line ask for. -/
theorem inspect_askedBy {o : InspectOptions}
    (h : ofWords words = .task verbosity (.inspect o)) : o.AskedBy words := by
  obtain ⟨g, hgives, rfl⟩ := exists_gives_inspect h
  obtain ⟨hoperands, hcount⟩ := hgives.operands_eq
  obtain ⟨path, hpath⟩ := List.length_eq_one_iff.1 hcount
  have hpath' : (inspectOptions g).path = path := by rw [inspectOptions, hpath]; rfl
  exact {
    command := hgives.command?_eq
    path := by rw [hpath', ← hpath, ← hoperands]; rfl
    bits := hgives.chooses_integer? (by decide)
    signed := hgives.has_iff (by decide)
    format := format_askedBy hgives }

end Invocation

end PartyInputs
