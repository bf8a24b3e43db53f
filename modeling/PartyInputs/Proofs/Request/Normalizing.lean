import PartyInputs.Proofs.Request.WellFormed

/-!
# What a file name is brought to

A file name is read component by component, but what comes of it can be read off its segments, the
pieces between slashes that say something: it is accepted iff there is exactly one and that one is
an entry, and it is brought to that entry. So a name that was accepted is brought to itself, and two
names are brought to the same entry iff they have the same segment, whatever stands around it.

* `FileName.Denotes`: a name denotes an entry.
* `FileName.accept_eq_error_iff`: why a name is refused.
* `Destination.accept_of_denotes`: the names of two parties, each of which is accepted.
* `FileName.accept_outcomes`: **what comes of a file name**.
-/

namespace PartyInputs

/-- `raw` denotes the entry `name`: it does not start at the root, `name` is the only one of its
segments, and `name` does not lead upwards. -/
structure FileName.Denotes (raw name : String) : Prop where
  not_rooted : raw.toList.head? ≠ some '/'
  segments_eq : segments raw = [name]
  ne_dots : name ≠ ".."

namespace FileName

variable {party : Nat} {raw name : String}

/-- Nothing denotes no entry. -/
theorem Denotes.ne_empty (h : Denotes raw name) : raw ≠ "" := by
  rintro rfl
  cases h.segments_eq

theorem accept_eq_ok_iff_denotes : accept party raw = .ok name ↔ Denotes raw name := by
  rw [accept_eq_ok_iff, plain?_eq_some_iff]
  constructor
  · rintro ⟨-, hroot, hsegments, hdots⟩
    exact ⟨hroot, hsegments, hdots⟩
  · intro h
    exact ⟨h.ne_empty, h.not_rooted, h.segments_eq, h.ne_dots⟩

/-- A name that denotes an entry spells it. -/
theorem denotes_iff_spells : Denotes raw name ↔ Spells raw name := by
  rw [← plain?_eq_some_iff_spells, plain?_eq_some_iff]
  constructor
  · intro h
    exact ⟨h.not_rooted, h.segments_eq, h.ne_dots⟩
  · rintro ⟨hroot, hsegments, hdots⟩
    exact ⟨hroot, hsegments, hdots⟩

/-- **Why a name is refused**: it says nothing at all, or it denotes no entry. -/
theorem accept_eq_error_iff {refusal : Refusal} :
    accept party raw = .error refusal ↔
      (raw = "" ∧ refusal = .nameEmpty party) ∨
        (raw ≠ "" ∧ (∀ name, ¬ Denotes raw name) ∧ refusal = .nameNotPlain party raw) := by
  rw [decides_accept party raw refusal]
  constructor
  · intro h
    cases h with
    | here hempty => exact .inl ⟨Decidable.not_not.1 hempty.1, hempty.2⟩
    | later hmet h =>
      cases h with
      | here hnone =>
        refine .inr ⟨fun hempty => hmet _ ⟨not_not.2 hempty, rfl⟩, ?_, hnone.2⟩
        intro name hname
        exact hnone.1 ⟨name, denotes_iff_spells.1 hname⟩
      | later _ h => cases h
  · rintro (⟨hempty, rfl⟩ | ⟨hne, hnone, rfl⟩)
    · exact .here ⟨not_not.2 hempty, rfl⟩
    · refine .later (Condition.met_demand hne) (.here ⟨?_, rfl⟩)
      rintro ⟨name, hname⟩
      exact hnone name (denotes_iff_spells.2 hname)

/-- A name that was accepted denotes itself. -/
theorem Denotes.self (h : Denotes raw name) : Denotes name name := by
  have haccept : accept 0 raw = .ok name := accept_eq_ok_iff_denotes.2 h
  exact accept_eq_ok_iff_denotes.1 (accept_plain (isPlain_of_accept haccept) 0)

/-- Two names that denote entries have the same segments iff they denote the same one. -/
theorem Denotes.segments_eq_iff {raw' name' : String} (h : Denotes raw name)
    (h' : Denotes raw' name') : segments raw = segments raw' ↔ name = name' := by
  rw [h.segments_eq, h'.segments_eq, List.singleton_inj]

end FileName

/-- **The names of two parties**, each of which denotes an entry, are refused iff they have the same
segments. -/
theorem Destination.accept_of_denotes {d : Destination} {w : Workload}
    {second name name' : String} (hw : w.partyCount = 2) (hsecond : d.second = some second)
    (h : FileName.Denotes d.first name) (h' : FileName.Denotes second name') :
    d.accept w =
      if FileName.segments d.first = FileName.segments second then .error (.nameShared name')
      else .ok { d with first := name, second := some name' } := by
  have hfirst : FileName.accept 0 d.first = .ok name := FileName.accept_eq_ok_iff_denotes.2 h
  have hother : FileName.accept 1 second = .ok name' := FileName.accept_eq_ok_iff_denotes.2 h'
  simp only [accept, hfirst, hsecond, hw]
  show (FileName.accept 1 second >>= _) = _
  rw [hother]
  have hiff := h.segments_eq_iff h'
  by_cases hsame : name' = name
  · rw [if_pos (hiff.2 hsame.symm)]
    exact if_pos hsame
  · rw [if_neg fun hsegments => hsame (hiff.1 hsegments).symm]
    exact if_neg hsame

/-- **What comes of a file name.** It is refused as empty iff it is, brought to an entry iff it
denotes that, and refused as it was given, for the party that it was given for, in every other case.
What a name is brought to is brought to itself, and the name spells it, with any number of empty
pieces and dots around it. If the names of two parties are both accepted, the destination is refused
iff they have the same segments, and with the entry that both of them denote. -/
theorem FileName.accept_outcomes (party : Nat) (raw : String) :
    (accept party raw = .error (.nameEmpty party) ↔ raw = "") ∧
      (∀ name, accept party raw = .ok name ↔ Denotes raw name) ∧
      (accept party raw = .error (.nameNotPlain party raw) ↔
        raw ≠ "" ∧ ∀ name, ¬ Denotes raw name) ∧
      -- a name that is accepted
      (∀ name, accept party raw = .ok name →
        Spells raw name ∧ ∀ other, accept other name = .ok name) ∧
      -- two names that are accepted
      ∀ (d : Destination) (w : Workload) (second name name' : String), w.partyCount = 2 →
        d.first = raw → d.second = some second → accept 0 raw = .ok name →
        accept 1 second = .ok name' →
        d.accept w =
          if segments raw = segments second then .error (.nameShared name')
          else .ok { d with first := name, second := some name' } := by
  refine ⟨?_, fun name => accept_eq_ok_iff_denotes, ?_, ?_, ?_⟩
  · rw [accept_eq_error_iff]
    simp
  · rw [accept_eq_error_iff]
    simp
  · intro name haccept
    have h : Denotes raw name := accept_eq_ok_iff_denotes.1 haccept
    exact ⟨denotes_iff_spells.1 h, fun other => accept_eq_ok_iff_denotes.2 h.self⟩
  · rintro d w second name name' hw rfl hsecond hname hname'
    exact Destination.accept_of_denotes hw hsecond (accept_eq_ok_iff_denotes.1 hname)
      (accept_eq_ok_iff_denotes.1 hname')

/-- Two spellings of one entry that share no piece but the entry, and a name that leads upwards in
between. -/
theorem FileName.accept_outcomes_aliases :
    let d : Destination := { directory := "out", first := "a//.", second := some "././a/" }
    accept 0 "a//." = .ok "a" ∧ Spells "././a/" "a" ∧
      d.accept .linearLayer = .error (.nameShared "a") ∧
      accept 1 "a/../a" = .error (.nameNotPlain 1 "a/../a") := by
  intro d
  have hsegments : segments "a//." = ["a"] ∧ segments "././a/" = ["a"] := by decide
  have hfirst : Denotes "a//." "a" := ⟨by decide, hsegments.1, by decide⟩
  have hsecond : Denotes "././a/" "a" := ⟨by decide, hsegments.2, by decide⟩
  have hup : ∀ name, ¬ Denotes "a/../a" name := by
    intro name h
    have heq : ["a", "..", "a"] = [name] := h.segments_eq
    cases heq
  obtain ⟨-, hok, -, -, hpair⟩ := accept_outcomes 0 "a//."
  obtain ⟨-, hsecondOk, -, hspells, -⟩ := accept_outcomes 1 "././a/"
  obtain ⟨-, -, hother, -, -⟩ := accept_outcomes 1 "a/../a"
  have haccept := (hok "a").2 hfirst
  have haccept' := (hsecondOk "a").2 hsecond
  refine ⟨haccept, (hspells "a" haccept').1, ?_, hother.2 ⟨by decide, hup⟩⟩
  rw [hpair d .linearLayer "././a/" "a" "a" rfl rfl rfl haccept haccept', hsegments.1, hsegments.2]
  exact if_pos rfl

end PartyInputs
