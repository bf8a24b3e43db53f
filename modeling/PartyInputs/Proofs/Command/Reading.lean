import Mathlib.Data.List.Nodup
import Mathlib.Data.List.TakeWhile
import PartyInputs.Proofs.Command.Words
import PartyInputs.Proofs.Fallible

/-!
# Reading what a command is given

What the words behind a command give, against what they say. `Reading.Step` says what a word can be
read as, and the rest is by induction over the words, one case for each kind of step.

* `Reading.step_of_addWord`: **what a word can be read as**.
* `Reading.Step.assigned`, `Reading.chooses_of_foldlM`: **the value of an option** after one word and
  after all.
* `Reading.Step.switched`, `Reading.has_of_foldlM`: whether an option was given that takes nothing.
* `Reading.Step.operands`, `Reading.operands_of_foldlM`: the operands.
* `Form.chooses_of_read`, `Form.has_of_read`, `Form.operands_of_read`: the same for what a command is
  given.
-/

namespace PartyInputs.Command

/-! ## Forms -/

/-- The names of the options can be told from each other, from their values, and from that of the
option that all commands have. -/
structure Form.IsProper (form : Form) : Prop where
  nodup : (form.options.map (·.name)).Nodup
  ne_verbose : ∀ o ∈ form.options, o.name ≠ "verbose"
  no_equals : ∀ o ∈ form.options, '=' ∉ o.name.toList
  nonempty : ∀ o ∈ form.options, o.name ≠ ""

section

variable {form : Form} (h : form.IsProper) {o o' : OptionForm} (ho : o ∈ form.options)
  (ho' : o' ∈ form.options)

include h ho ho'

theorem Form.IsProper.unique (hname : o.name = o'.name) : o = o' :=
  List.inj_on_of_nodup_map h.nodup ho ho' hname

/-- An option that takes something and one that takes nothing have different names. -/
theorem Form.IsProper.ne_of_takes (htakes : o.takes ≠ .nothing) (htakes' : o'.takes = .nothing) :
    o.name ≠ o'.name := by
  intro hname
  rw [h.unique ho ho' hname] at htakes
  exact htakes htakes'

end

/-- The names of the options that take something. -/
def Form.taking (form : Form) : List String :=
  (form.options.filter (·.takes ≠ .nothing)).map (·.name)

theorem Form.mem_map_taking_iff {form : Form} {word : String} :
    word ∈ form.taking.map optionWord ↔
      ∃ o ∈ form.options, o.takes ≠ .nothing ∧ word = optionWord o.name := by
  unfold taking
  rw [List.map_map, List.mem_map]
  constructor
  · rintro ⟨o, ho, rfl⟩
    rw [List.mem_filter, decide_eq_true_iff] at ho
    exact ⟨o, ho.1, ho.2, rfl⟩
  · rintro ⟨o, ho, htakes, rfl⟩
    exact ⟨o, List.mem_filter.2 ⟨ho, decide_eq_true htakes⟩, rfl⟩

/-- Nothing can be made of a value by an option that takes nothing. -/
theorem Takes.ne_nothing_of_setting? {takes : Takes} {value : String} {setting : Setting}
    (h : takes.setting? value = some setting) : takes ≠ .nothing := by
  rintro rfl
  cases h

/-- The word asks for more detail. -/
def AsksForDetail (word : String) : Prop :=
  word = "--verbose" ∨ ∃ letters, word.toList = '-' :: 'v' :: letters

theorem AsksForDetail.ne_dashes {word : String} (h : AsksForDetail word) : word ≠ "--" := by
  rintro rfl
  rcases h with h | ⟨letters, h⟩
  · exact absurd h (by decide)
  · simp at h

theorem AsksForDetail.isDashed {word : String} (h : AsksForDetail word) : IsDashed word := by
  rcases h with rfl | ⟨letters, h⟩
  · decide
  · exact isDashed_iff.2 ⟨_, _, h⟩

theorem AsksForDetail.ne_optionWord {word name : String} (h : AsksForDetail word)
    (hname : name ≠ "verbose") : word ≠ optionWord name := by
  rintro rfl
  rcases h with h | ⟨letters, h⟩
  · exact hname (optionWord_inj.1 h)
  · simp at h

theorem AsksForDetail.silent {word name : String} (h : AsksForDetail word)
    (hname : word ≠ optionWord name) : Silent word name where
  ne_dashes := h.ne_dashes
  ne_optionWord := hname
  ne_assignment value := by
    rcases h with rfl | ⟨letters, h⟩
    · exact optionWord_ne_assignment (a := "verbose") (by decide)
    · rintro rfl
      simp at h

/-! ## One word -/

namespace Reading

/-- The reading with a setting more, and nothing due. -/
def set (r : Reading) (name : String) (setting : Setting) : Reading :=
  { r with
    given := { r.given with settings := (name, setting) :: r.given.settings }
    due := none }

/-- What a word can be read as, and what it gives. -/
inductive Step (form : Form) (r : Reading) (word : String) : Reading → Prop where
  /-- One of the operands that the form has room for. -/
  | operand (hkind : r.literal = true ∨ r.due = none ∧ ¬ IsDashed word)
      (hroom : r.given.operands.length < form.operands) :
      Step form r word { r with given := { r.given with operands := r.given.operands ++ [word] } }
  /-- The end of the options. -/
  | dashes (hliteral : r.literal = false) (hdue : r.due = none) (hword : word = "--") :
      Step form r word { r with literal := true }
  /-- A wish for more detail. -/
  | detail (verbosity : Nat) (hliteral : r.literal = false) (hdue : r.due = none)
      (hword : AsksForDetail word) (hother : ∀ o ∈ form.options, word ≠ optionWord o.name) :
      Step form r word { r with given := { r.given with verbosity } }
  /-- An option that takes nothing. -/
  | switch {o : OptionForm} (hliteral : r.literal = false) (hdue : r.due = none)
      (ho : o ∈ form.options) (htakes : o.takes = .nothing) (hword : word = optionWord o.name)
      (hfresh : ¬ r.given.has o.name) : Step form r word (r.set o.name .on)
  /-- An option whose value comes next. -/
  | name {o : OptionForm} (hliteral : r.literal = false) (hdue : r.due = none)
      (ho : o ∈ form.options) (htakes : o.takes ≠ .nothing) (hword : word = optionWord o.name) :
      Step form r word { r with due := some o }
  /-- An option with its value. -/
  | joined {o : OptionForm} {value : String} {setting : Setting} (hliteral : r.literal = false)
      (hdue : r.due = none) (ho : o ∈ form.options) (hword : word = assignment o.name value)
      (hsetting : o.takes.setting? value = some setting) (hfresh : ¬ r.given.has o.name) :
      Step form r word (r.set o.name setting)
  /-- The value of an option whose name came before. -/
  | value {o : OptionForm} {setting : Setting} (hliteral : r.literal = false)
      (hdue : r.due = some o) (hword : ∀ body, word.toList ≠ '-' :: '-' :: body)
      (hsetting : o.takes.setting? word = some setting) (hfresh : ¬ r.given.has o.name) :
      Step form r word (r.set o.name setting)

end Reading

theorem Given.add_eq_ok {g g' : Given} {name : String} {setting : Setting}
    (h : g.add name setting = .ok g') :
    ¬ g.has name ∧ g' = { g with settings := (name, setting) :: g.settings } := by
  unfold add at h
  split at h
  · cases h
  · rename_i hfresh
    cases h
    exact ⟨hfresh, rfl⟩

namespace Reading

variable {form : Form} {r r' : Reading} {word : String} {body : List Char}

theorem addValue_eq_ok {o : OptionForm} (h : r.addValue o word = .ok r') :
    ∃ setting, o.takes.setting? word = some setting ∧ ¬ r.given.has o.name ∧
      r' = r.set o.name setting := by
  unfold addValue at h
  split at h
  · cases h
  · rename_i setting hsetting
    obtain ⟨given, hadd, rfl⟩ := map_eq_ok_iff.1 h
    obtain ⟨hfresh, rfl⟩ := Given.add_eq_ok hadd
    exact ⟨setting, hsetting, hfresh, rfl⟩

theorem addOperand_eq_ok (h : r.addOperand form word = .ok r') :
    r.given.operands.length < form.operands ∧
      r' = { r with given := { r.given with operands := r.given.operands ++ [word] } } := by
  unfold addOperand at h
  split at h
  · cases h
  · rename_i hroom
    cases h
    rw [not_or] at hroom
    exact ⟨by omega, rfl⟩

/-- Letters behind a single dash only ask for more detail. -/
theorem addLetters_eq_ok {c : Char} {letters : List Char}
    (h : r.addLetters (c :: letters) = .ok r') :
    c = 'v' ∧ ∃ verbosity, r' = { r with given := { r.given with verbosity } } := by
  have hdetail : ∀ (letters : List Char) (r : Reading), r.addLetters letters = .ok r' →
      ∃ verbosity, r' = { r with given := { r.given with verbosity } } := by
    intro letters r h
    fun_induction addLetters r letters with
    | case1 => cases h; exact ⟨_, rfl⟩
    | case2 r letters ih => exact ih h
    | case3 => cases h
    | case4 => cases h
  refine ⟨?_, hdetail _ _ h⟩
  unfold addLetters at h
  split at h
  · rename_i heq; cases heq
  · rename_i heq; cases heq; rfl
  · cases h
  · cases h

/-- What stands behind two dashes is a name alone or a name, an equals sign, and a value. -/
theorem body_cases (body : List Char) :
    (body.dropWhile (· ≠ '=') = [] ∧ body.takeWhile (· ≠ '=') = body) ∨
      ∃ value, body.dropWhile (· ≠ '=') = '=' :: value ∧
        body = body.takeWhile (· ≠ '=') ++ '=' :: value := by
  rcases hdrop : body.dropWhile (· ≠ '=') with _ | ⟨c, value⟩
  · exact .inl ⟨rfl, List.takeWhile_eq_self_iff.2 (List.dropWhile_eq_nil_iff.1 hdrop)⟩
  · obtain rfl : c = '=' := by
      have hhead := List.head?_dropWhile_not (· ≠ '=') body
      rw [hdrop] at hhead
      simpa using hhead
    refine .inr ⟨value, rfl, ?_⟩
    rw [← hdrop, List.takeWhile_append_dropWhile]

/-- A name alone, behind two dashes. -/
theorem step_of_addOption_name (hliteral : r.literal = false) (hdue : r.due = none)
    (hword : word = optionWord (String.ofList body)) (hdrop : body.dropWhile (· ≠ '=') = [])
    (hname : body.takeWhile (· ≠ '=') = body) (h : r.addOption form body = .ok r') :
    Step form r word r' := by
  unfold addOption at h
  rw [hdrop, hname] at h
  rcases hfind : form.options.find? (·.name = String.ofList body) with _ | o
  · have hother : ∀ o ∈ form.options, word ≠ optionWord o.name := by
      intro o ho heq
      have hno := List.find?_eq_none.1 hfind o ho
      rw [hword, optionWord_inj] at heq
      simp [heq] at hno
    simp only [hfind] at h
    split at h
    · cases h
    · split at h
      · rename_i hverbose
        obtain ⟨-, verbosity, rfl⟩ := addLetters_eq_ok h
        rw [hverbose] at hword
        exact .detail verbosity hliteral hdue (.inl hword) hother
      · cases h
  · have ho := List.mem_of_find?_eq_some hfind
    have heq : o.name = String.ofList body := by simpa using List.find?_some hfind
    rw [← heq] at hword
    simp only [hfind] at h
    split at h
    · rename_i htakes
      obtain ⟨given, hadd, rfl⟩ := map_eq_ok_iff.1 h
      obtain ⟨hfresh, rfl⟩ := Given.add_eq_ok hadd
      have hset := Step.switch hliteral hdue ho htakes hword hfresh
      rw [set, ← hdue] at hset
      exact hset
    · rename_i htakes
      cases h
      exact .name hliteral hdue ho htakes hword

/-- A name with a value, behind two dashes. -/
theorem step_of_addOption_value {value : List Char} (hliteral : r.literal = false)
    (hdue : r.due = none)
    (hword : word = assignment (String.ofList (body.takeWhile (· ≠ '='))) (String.ofList value))
    (hdrop : body.dropWhile (· ≠ '=') = '=' :: value) (h : r.addOption form body = .ok r') :
    Step form r word r' := by
  unfold addOption at h
  rw [hdrop] at h
  rcases hfind : form.options.find? (·.name = String.ofList (body.takeWhile (· ≠ '='))) with _ | o
  · simp only [hfind] at h
    cases h
  · have ho := List.mem_of_find?_eq_some hfind
    have heq : o.name = String.ofList (body.takeWhile (· ≠ '=')) := by
      simpa using List.find?_some hfind
    rw [← heq] at hword
    simp only [hfind] at h
    obtain ⟨setting, hsetting, hfresh, rfl⟩ := addValue_eq_ok h
    exact .joined hliteral hdue ho hword hsetting hfresh

theorem step_of_addOption (hliteral : r.literal = false) (hdue : r.due = none)
    (hword : word.toList = '-' :: '-' :: body) (h : r.addOption form body = .ok r') :
    Step form r word r' := by
  rcases body_cases body with ⟨hdrop, hname⟩ | ⟨value, hdrop, hbody⟩
  · refine step_of_addOption_name hliteral hdue ?_ hdrop hname h
    rw [← String.toList_inj, hword, toList_optionWord, String.toList_ofList]
  · refine step_of_addOption_value hliteral hdue ?_ hdrop h
    rw [← String.toList_inj, hword, toList_assignment, String.toList_ofList,
      String.toList_ofList, ← hbody]

/-- **What a word can be read as.** -/
theorem step_of_addWord (h : addWord form r word = .ok r') : Step form r word r' := by
  unfold addWord at h
  split at h
  · rename_i hliteral
    obtain ⟨hroom, rfl⟩ := addOperand_eq_ok h
    exact .operand (.inl hliteral) hroom
  · rename_i hliteral
    rw [Bool.not_eq_true] at hliteral
    split at h
    · rename_i hword hdue
      cases h
      refine .dashes hliteral hdue ?_
      rw [← String.toList_inj, hword]
      rfl
    · rename_i body hdash hword hdue
      exact step_of_addOption hliteral hdue hword h
    · -- a single dash
      rename_i c letters hdash hdashes hword hdue
      obtain ⟨rfl, verbosity, rfl⟩ := addLetters_eq_ok h
      refine .detail verbosity hliteral hdue (.inr ⟨letters, hword⟩) ?_
      rintro o - rfl
      simp at hword
    · rename_i hdue hdash hdashes hplain
      obtain ⟨hroom, rfl⟩ := addOperand_eq_ok h
      refine .operand (.inr ⟨hdue, ?_⟩) hroom
      rw [isDashed_iff]
      rintro ⟨c, letters, hword⟩
      exact hplain c letters hword
    · -- a value that starts with a dash is an integer, and so has one dash only
      rename_i c letters o hword hdue
      split at h
      · rename_i htakes
        obtain ⟨setting, hsetting, hfresh, rfl⟩ := addValue_eq_ok h
        refine .value hliteral hdue ?_ hsetting hfresh
        intro body hbody
        rw [htakes, Takes.setting?, hbody] at hsetting
        simp [Text.Decimal.int64?, Text.Decimal.int?, Text.Decimal.nat?] at hsetting
      · cases h
    · rename_i o hdue hdash
      obtain ⟨setting, hsetting, hfresh, rfl⟩ := addValue_eq_ok h
      exact .value hliteral hdue (fun body => hdash '-' body) hsetting hfresh

/-! ## All words -/

/-- The option whose value is due is one of the form and takes something. -/
def Sound (form : Form) (r : Reading) : Prop := ∀ o ∈ r.due, o ∈ form.options ∧ o.takes ≠ .nothing

theorem sound_of_due (h : r.due = none) : r.Sound form := by
  intro o ho
  rw [h] at ho
  cases ho

theorem Step.sound (h : Step form r word r') (hr : r.Sound form) : r'.Sound form := by
  cases h with
  | operand => exact hr
  | dashes => exact hr
  | detail => exact hr
  | switch => exact sound_of_due rfl
  | name _ _ ho htakes =>
    rintro _ ⟨⟩
    exact ⟨ho, htakes⟩
  | joined => exact sound_of_due rfl
  | value => exact sound_of_due rfl

/-- The setting of an option. -/
def setting? (r : Reading) (name : String) : Option Setting := r.given.settings.lookup name

theorem has_iff {name : String} : r.given.has name ↔ r.setting? name ≠ none := by
  rw [Given.has, Option.isSome_iff_ne_none]
  rfl

@[simp] theorem setting?_set_self (name : String) (setting : Setting) :
    (r.set name setting).setting? name = some setting := by
  simp [set, setting?]

theorem setting?_set_of_ne {name other : String} (h : other ≠ name) (setting : Setting) :
    (r.set name setting).setting? other = r.setting? other := by
  unfold set setting?
  rw [List.lookup_cons, beq_eq_false_iff_ne.2 h]

theorem has_set_iff {name other : String} {setting : Setting} :
    (r.set name setting).given.has other ↔ r.given.has other ∨ name = other := by
  by_cases hname : name = other
  · simp [has_iff, hname]
  · rw [has_iff, setting?_set_of_ne (Ne.symm hname), has_iff]
    simp [hname]

/-- What was given stays. -/
theorem Step.kept (h : Step form r word r') {name : String} {setting : Setting}
    (hname : r.setting? name = some setting) : r'.setting? name = some setting := by
  have hset : ∀ other setting', ¬ r.given.has other →
      (r.set other setting').setting? name = some setting := by
    intro other setting' hfresh
    rw [setting?_set_of_ne _ setting', hname]
    rintro rfl
    simp [has_iff, hname] at hfresh
  cases h with
  | operand => exact hname
  | dashes => exact hname
  | detail => exact hname
  | switch _ _ _ _ _ hfresh => exact hset _ _ hfresh
  | name => exact hname
  | joined _ _ _ _ _ hfresh => exact hset _ _ hfresh
  | value _ _ _ _ hfresh => exact hset _ _ hfresh

/-- The words give a value to an option, if they are read from here on: they assign it, or it is due
and comes first. -/
def Assigned (r : Reading) (words : List String) (name value : String) : Prop :=
  r.literal = false ∧
    (Assigns words name value ∨
      (∃ o ∈ r.due, o.name = name) ∧ (optionWords words).head? = some value)

/-- With nothing due before and behind it, a word that says nothing about an option makes no
difference. -/
theorem assigned_cons_of_silent {name : String} (h : Silent word name) (hdue : r.due = none)
    (hdue' : r'.due = none) (hliteral : r'.literal = r.literal) (words : List String)
    (value : String) : r.Assigned (word :: words) name value ↔ r'.Assigned words name value := by
  unfold Assigned
  rw [assigns_cons_of_silent h, hdue, hdue', hliteral]
  simp

variable {o : OptionForm}

/-- **One word and the value of an option**: either the word gives none, or what it gives is what the
option is set to. -/
theorem Step.assigned (hform : form.IsProper) (h : Step form r word r') (hr : r.Sound form)
    (ho : o ∈ form.options) (htakes : o.takes ≠ .nothing) :
    (r'.setting? o.name = r.setting? o.name ∧
      ∀ words value, r.Assigned (word :: words) o.name value ↔ r'.Assigned words o.name value) ∨
    ∃ value setting, o.takes.setting? value = some setting ∧
      r'.setting? o.name = some setting ∧
      ∀ words value', r.Assigned (word :: words) o.name value' ↔
        value' = value ∨ r'.Assigned words o.name value' := by
  cases h with
  | operand hkind hroom =>
    refine .inl ⟨rfl, ?_⟩
    rcases hkind with hliteral | ⟨hdue, hplain⟩
    · simp [Assigned, hliteral]
    · exact assigned_cons_of_silent (silent_of_not_isDashed hplain) hdue hdue rfl
  | dashes hliteral hdue hword =>
    refine .inl ⟨rfl, ?_⟩
    rw [hword]
    simp [Assigned, not_assigns_dashes]
  | detail verbosity hliteral hdue hword hother =>
    exact .inl ⟨rfl, assigned_cons_of_silent (hword.silent (hother o ho)) hdue hdue rfl⟩
  | @switch o' hliteral hdue ho' htakes' hword hfresh =>
    have hne := hform.ne_of_takes ho ho' htakes htakes'
    refine .inl ⟨setting?_set_of_ne hne _, ?_⟩
    have hsilent : Silent word o.name := by
      rw [hword]
      exact silent_optionWord (hform.nonempty o' ho') (hform.no_equals o' ho') hne.symm
    exact assigned_cons_of_silent hsilent hdue rfl rfl
  | @name o' hliteral hdue ho' htakes' hword =>
    refine .inl ⟨rfl, ?_⟩
    intro words value
    unfold Assigned
    rw [hword, assigns_cons_iff (optionWord_ne_dashes (hform.nonempty o' ho')), optionWord_inj]
    simp [optionWord_ne_assignment (hform.no_equals o' ho'), hliteral, hdue, or_comm]
  | @joined o' value setting hliteral hdue ho' hword hsetting hfresh =>
    by_cases hname : o'.name = o.name
    · obtain rfl := hform.unique ho' ho hname
      refine .inr ⟨value, setting, hsetting, setting?_set_self .., ?_⟩
      intro words value'
      unfold Assigned
      rw [hword, assigns_cons_iff assignment_ne_dashes,
        assignment_inj (hform.no_equals o' ho') (hform.no_equals o' ho')]
      simp [(optionWord_ne_assignment (hform.no_equals o' ho')).symm, hliteral, hdue, set, eq_comm]
    · refine .inl ⟨setting?_set_of_ne (Ne.symm hname) _, ?_⟩
      have hsilent : Silent word o.name := by
        rw [hword]
        exact silent_assignment (hform.no_equals o' ho') (hform.no_equals o ho) hname
      exact assigned_cons_of_silent hsilent hdue rfl rfl
  | @value o' setting hliteral hdue hword hsetting hfresh =>
    have hsilent : ∀ name, Silent word name := fun name => silent_of_forall hword
    obtain ⟨ho', -⟩ := hr o' hdue
    by_cases hname : o'.name = o.name
    · obtain rfl := hform.unique ho' ho hname
      refine .inr ⟨word, setting, hsetting, setting?_set_self .., ?_⟩
      intro words value'
      unfold Assigned
      rw [assigns_cons_of_silent (hsilent _), optionWords_cons (hsilent "").ne_dashes]
      simp [hliteral, hdue, set, eq_comm, or_comm]
    · refine .inl ⟨setting?_set_of_ne (Ne.symm hname) _, ?_⟩
      intro words value
      unfold Assigned
      rw [assigns_cons_of_silent (hsilent _)]
      simp [hdue, hname, set]

/-- The setting says what the value of an option makes of it. -/
def Makes (o : OptionForm) (value : String) (found : Option Setting) : Prop :=
  found ≠ none ∧ o.takes.setting? value = found

/-- **All words and the value of an option**: the option is set to what any value makes of it that
the words give it, and is left alone if they give none. -/
theorem chooses_of_foldlM (hform : form.IsProper) (ho : o ∈ form.options)
    (htakes : o.takes ≠ .nothing) {words : List String} (hr : r.Sound form)
    (h : words.foldlM (addWord form) r = .ok r') :
    (∀ setting, r.setting? o.name = some setting → r'.setting? o.name = some setting) ∧
      Chooses (r.Assigned words o.name) (Makes o) (r.setting? o.name) (r'.setting? o.name) := by
  induction words generalizing r with
  | nil =>
    cases h
    exact ⟨fun _ hsetting => hsetting, ⟨by simp [Assigned, not_assigns_nil], fun _ => rfl⟩⟩
  | cons word words ih =>
    rw [List.foldlM_cons] at h
    obtain ⟨next, hnext, h⟩ := bind_eq_ok_iff.1 h
    have hstep := step_of_addWord hnext
    obtain ⟨hkept, hgiven, hmissing⟩ := ih (hstep.sound hr) h
    refine ⟨fun setting hsetting => hkept setting (hstep.kept hsetting), ?_⟩
    rcases hstep.assigned hform hr ho htakes with
      ⟨hsame, hassigned⟩ | ⟨value, setting, hmakes, hset, hassigned⟩
    · refine .congr (fun value => (hassigned words value).symm) ⟨hgiven, ?_⟩
      exact fun hno => (hmissing hno).trans hsame
    · have hmade : ∀ value', value' = value ∨ next.Assigned words o.name value' →
          Makes o value' (r'.setting? o.name) := by
        rintro value' (rfl | hvalue')
        · rw [hkept setting hset]
          exact ⟨by simp, hmakes⟩
        · exact hgiven value' hvalue'
      refine .congr (fun value' => (hassigned words value').symm) ⟨hmade, ?_⟩
      exact fun hno => absurd (.inl rfl) (hno value)

/-- **One word and an option that takes nothing.** -/
theorem Step.switched (hform : form.IsProper) (h : Step form r word r') (hr : r.Sound form)
    (ho : o ∈ form.options) (htakes : o.takes = .nothing) :
    r'.given.has o.name ↔
      r.given.has o.name ∨ (r.literal = false ∧ word = optionWord o.name) := by
  -- an option that takes something is another one
  have hother : ∀ o' ∈ form.options, o'.takes ≠ .nothing → o'.name ≠ o.name :=
    fun o' ho' htakes' => hform.ne_of_takes ho' ho htakes' htakes
  cases h with
  | operand hkind hroom =>
    have hno : ¬ (r.literal = false ∧ word = optionWord o.name) := by
      rintro ⟨hliteral, rfl⟩
      rcases hkind with hliteral' | ⟨-, hplain⟩
      · simp [hliteral] at hliteral'
      · exact hplain (isDashed_optionWord _)
    simp [Given.has, hno]
  | dashes hliteral hdue hword =>
    have hne := (optionWord_ne_dashes (hform.nonempty o ho)).symm
    simp [hword, hne]
  | detail verbosity hliteral hdue hword hother =>
    simp [Given.has, hother o ho]
  | @switch o' hliteral hdue ho' htakes' hword hfresh =>
    rw [has_set_iff, hword, optionWord_inj]
    simp [hliteral]
  | @name o' hliteral hdue ho' htakes' hword =>
    simp [hword, optionWord_inj, hother o' ho' htakes']
  | @joined o' value setting hliteral hdue ho' hword hsetting hfresh =>
    have hne := hother o' ho' (Takes.ne_nothing_of_setting? hsetting)
    rw [has_set_iff, hword]
    simp [hne, (optionWord_ne_assignment (hform.no_equals o ho)).symm]
  | @value o' setting hliteral hdue hword hsetting hfresh =>
    have hne := hother o' (hr o' hdue).1 (Takes.ne_nothing_of_setting? hsetting)
    rw [has_set_iff]
    simp [hne, (silent_of_forall hword).ne_optionWord]

/-- The options end with `--`. -/
theorem Step.literal_iff (hform : form.IsProper) (h : Step form r word r') :
    r'.literal = false ↔ r.literal = false ∧ word ≠ "--" := by
  cases h with
  | operand hkind hroom =>
    refine ⟨fun hliteral => ⟨hliteral, ?_⟩, And.left⟩
    rintro rfl
    rcases hkind with hliteral' | ⟨-, hplain⟩
    · rw [hliteral] at hliteral'
      cases hliteral'
    · exact hplain (by decide)
  | dashes hliteral hdue hword => simp [hword]
  | detail verbosity hliteral hdue hword hother => simp [hliteral, hword.ne_dashes]
  | @switch o' hliteral hdue ho' htakes' hword hfresh =>
    simp [set, hliteral, hword, optionWord_ne_dashes (hform.nonempty o' ho')]
  | @name o' hliteral hdue ho' htakes' hword =>
    simp [hliteral, hword, optionWord_ne_dashes (hform.nonempty o' ho')]
  | @joined o' value setting hliteral hdue ho' hword hsetting hfresh =>
    simp [set, hliteral, hword, assignment_ne_dashes]
  | @value o' setting hliteral hdue hword hsetting hfresh =>
    simp [set, hliteral, ne_dashes_of_forall hword]

/-- **All words and an option that takes nothing**: it was given iff its word is there, in front of
`--`. -/
theorem has_of_foldlM (hform : form.IsProper) (ho : o ∈ form.options)
    (htakes : o.takes = .nothing) {words : List String} (hr : r.Sound form)
    (h : words.foldlM (addWord form) r = .ok r') :
    r'.given.has o.name ↔
      r.given.has o.name ∨ (r.literal = false ∧ optionWord o.name ∈ optionWords words) := by
  induction words generalizing r with
  | nil =>
    cases h
    simp
  | cons word words ih =>
    rw [List.foldlM_cons] at h
    obtain ⟨next, hnext, h⟩ := bind_eq_ok_iff.1 h
    have hstep := step_of_addWord hnext
    rw [ih (hstep.sound hr) h, hstep.switched hform hr ho htakes, hstep.literal_iff hform]
    by_cases hword : word = "--"
    · simp [hword, (optionWord_ne_dashes (hform.nonempty o ho)).symm]
    · rw [optionWords_cons hword, List.mem_cons, eq_comm (a := optionWord o.name)]
      tauto

/-- The operands among words that are read from here on. -/
def operandsOf (form : Form) (r : Reading) (words : List String) : List String :=
  if r.literal then words else operandWords form.taking r.due.isSome words

theorem operandsOf_cons_of_isDashed (hliteral : r.literal = false) (hdue : r.due = none)
    (h : IsDashed word) (hne : word ≠ "--") (words : List String) :
    r.operandsOf form (word :: words) =
      operandWords form.taking (word ∈ form.taking.map optionWord) words := by
  unfold operandsOf
  rw [hliteral, hdue, if_neg (by simp), Option.isSome_none, operandWords_of_isDashed h hne]

/-- **One word and the operands**: what the reading has and what is still to come are the same
operands after it. -/
theorem Step.operands (hform : form.IsProper) (h : Step form r word r') (words : List String) :
    r.given.operands ++ r.operandsOf form (word :: words) =
      r'.given.operands ++ r'.operandsOf form words := by
  cases h with
  | operand hkind hroom =>
    unfold operandsOf
    rcases hkind with hliteral | ⟨hdue, hplain⟩
    · simp [hliteral]
    · rw [hdue, Option.isSome_none, operandWords_of_not_isDashed hplain]
      by_cases hliteral : r.literal
      · simp [hliteral]
      · simp [hliteral]
  | dashes hliteral hdue hword =>
    simp [operandsOf, hliteral, hdue, hword]
  | detail verbosity hliteral hdue hword hother =>
    have hno : word ∉ form.taking.map optionWord := by
      rw [Form.mem_map_taking_iff]
      rintro ⟨o, ho, -, heq⟩
      exact hother o ho heq
    rw [operandsOf_cons_of_isDashed hliteral hdue hword.isDashed hword.ne_dashes]
    simp [operandsOf, hliteral, hdue, hno]
  | @switch o hliteral hdue ho htakes hword hfresh =>
    subst hword
    have hno : optionWord o.name ∉ form.taking.map optionWord := by
      rw [Form.mem_map_taking_iff]
      rintro ⟨o', ho', htakes', heq⟩
      exact hform.ne_of_takes ho' ho htakes' htakes (optionWord_inj.1 heq).symm
    rw [operandsOf_cons_of_isDashed hliteral hdue (isDashed_optionWord _)
      (optionWord_ne_dashes (hform.nonempty o ho))]
    simp [operandsOf, set, hliteral, hno]
  | @name o hliteral hdue ho htakes hword =>
    subst hword
    have hmem : optionWord o.name ∈ form.taking.map optionWord :=
      Form.mem_map_taking_iff.2 ⟨o, ho, htakes, rfl⟩
    rw [operandsOf_cons_of_isDashed hliteral hdue (isDashed_optionWord _)
      (optionWord_ne_dashes (hform.nonempty o ho))]
    simp [operandsOf, hliteral, hmem]
  | @joined o value setting hliteral hdue ho hword hsetting hfresh =>
    subst hword
    have hno : assignment o.name value ∉ form.taking.map optionWord := by
      rw [Form.mem_map_taking_iff]
      rintro ⟨o', ho', -, heq⟩
      exact optionWord_ne_assignment (hform.no_equals o' ho') heq.symm
    rw [operandsOf_cons_of_isDashed hliteral hdue (isDashed_assignment ..) assignment_ne_dashes]
    simp [operandsOf, set, hliteral, hno]
  | @value o setting hliteral hdue hword hsetting hfresh =>
    unfold operandsOf
    rw [hdue, Option.isSome_some, operandWords_value (ne_dashes_of_forall hword)]
    simp [hliteral, set]

/-- **All words and the operands.** -/
theorem operands_of_foldlM (hform : form.IsProper) {words : List String}
    (h : words.foldlM (addWord form) r = .ok r') :
    r'.given.operands = r.given.operands ++ r.operandsOf form words := by
  induction words generalizing r with
  | nil =>
    cases h
    simp [operandsOf]
  | cons word words ih =>
    rw [List.foldlM_cons] at h
    obtain ⟨next, hnext, h⟩ := bind_eq_ok_iff.1 h
    rw [ih h, (step_of_addWord hnext).operands hform]

end Reading

/-! ## What was given -/

namespace Form

variable {form : Form} {words : List String} {g : Given} {o : OptionForm}

theorem read_eq_ok (h : form.read words = .ok g) :
    ∃ r, words.foldlM (Reading.addWord form) {} = .ok r ∧ r.given = g ∧ form.admits g := by
  unfold read at h
  obtain ⟨r, hr, h⟩ := bind_eq_ok_iff.1 h
  refine ⟨r, hr, ?_⟩
  split at h
  · cases h
  · rename_i hno
    rw [not_or] at hno
    cases h
    simpa using hno.2

/-- **The setting of an option** is what any value makes of it that the words give it. -/
theorem chooses_of_read (hform : form.IsProper) (ho : o ∈ form.options)
    (htakes : o.takes ≠ .nothing) (h : form.read words = .ok g) :
    Chooses (Assigns words o.name) (Reading.Makes o) none (g.settings.lookup o.name) := by
  obtain ⟨r, hr, rfl, -⟩ := read_eq_ok h
  refine .congr ?_ (Reading.chooses_of_foldlM hform ho htakes (Reading.sound_of_due rfl) hr).2
  simp [Reading.Assigned]

/-- **A switch was given iff its word is there.** -/
theorem has_of_read (hform : form.IsProper) (ho : o ∈ form.options) (htakes : o.takes = .nothing)
    (h : form.read words = .ok g) : g.has o.name ↔ optionWord o.name ∈ optionWords words := by
  obtain ⟨r, hr, rfl, -⟩ := read_eq_ok h
  rw [Reading.has_of_foldlM hform ho htakes (Reading.sound_of_due rfl) hr]
  simp [Given.has]

/-- **The operands** are the words that are none of an option, and there are as many as the command
wants. -/
theorem operands_of_read (hform : form.IsProper) (h : form.read words = .ok g) :
    g.operands = operandWords form.taking false words ∧ g.operands.length = form.operands := by
  obtain ⟨r, hr, rfl, hadmits⟩ := read_eq_ok h
  refine ⟨Reading.operands_of_foldlM hform hr, ?_⟩
  unfold admits at hadmits
  simp only [Bool.and_eq_true, decide_eq_true_iff] at hadmits
  exact hadmits.1.1

/-- Of two options that exclude each other one was given at most. -/
theorem not_both_of_read (h : form.read words = .ok g) {a b : String}
    (hconflict : (a, b) ∈ form.conflicts) : ¬ (g.has a ∧ g.has b) := by
  obtain ⟨r, -, -, hadmits⟩ := read_eq_ok h
  unfold admits at hadmits
  simp only [Bool.and_eq_true, List.all_eq_true] at hadmits
  have hboth := hadmits.1.2 _ hconflict
  rintro ⟨ha, hb⟩
  simp [ha, hb] at hboth

end Form

end PartyInputs.Command
