import PartyInputs.Proofs.Request.Acceptance
import PartyInputs.Proofs.Request.Spelling

/-!
# The conditions of a request

A request is checked in many places. Said in one place, it has to meet a list of conditions, and the
first one that it does not meet gives the refusal.

* `FirstBroken`: **the first of some conditions that is broken**, and the refusal that it gives.
* `Decides`: a check that refuses by conditions, and `Decides.bind`: **checks one after the other
  have the conditions one behind the other**.
* `Request.conditions`: the conditions of a request, in their order.
* `Refusal.IsGiven`, `Request.isGiven_of_firstBroken`: **the refusals that are given**; no size is too
  large for an address.
* `Request.decides_plan`: **planning refuses by these conditions**.
-/

namespace PartyInputs

/-! ## Conditions in order -/

/-- A condition is known by the refusals that it gives: none if it is met. -/
def Condition := Refusal → Prop

namespace Condition

/-- The condition that something holds, with the refusal for when it does not. -/
def demand (holds : Prop) (refusal : Refusal) : Condition := fun x => ¬ holds ∧ x = refusal

/-- A condition that gives no refusal is met. -/
def Met (c : Condition) : Prop := ∀ x, ¬ c x

theorem met_demand {holds : Prop} {refusal : Refusal} (h : holds) : (demand holds refusal).Met :=
  fun _ hx => hx.1 h

end Condition

/-- The first condition of the list that is not met gives the refusal. -/
inductive FirstBroken : List Condition → Refusal → Prop where
  | here {c : Condition} {cs : List Condition} {x : Refusal} : c x → FirstBroken (c :: cs) x
  | later {c : Condition} {cs : List Condition} {x : Refusal} :
      c.Met → FirstBroken cs x → FirstBroken (c :: cs) x

/-- The refusal is given by one of the conditions. -/
theorem FirstBroken.exists_mem {cs : List Condition} {x : Refusal} (h : FirstBroken cs x) :
    ∃ c ∈ cs, c x := by
  induction h with
  | here hx => exact ⟨_, List.mem_cons_self, hx⟩
  | later _ _ ih =>
    obtain ⟨c, hc, hx⟩ := ih
    exact ⟨c, List.mem_cons_of_mem _ hc, hx⟩

/-- Some condition is broken first iff some condition is broken at all. -/
theorem exists_firstBroken_iff {cs : List Condition} :
    (∃ x, FirstBroken cs x) ↔ ∃ c ∈ cs, ¬ c.Met := by
  constructor
  · rintro ⟨x, hx⟩
    obtain ⟨c, hc, hbroken⟩ := hx.exists_mem
    exact ⟨c, hc, fun hmet => hmet x hbroken⟩
  · rintro ⟨d, hd, hbroken⟩
    induction cs with
    | nil => cases hd
    | cons c cs ih =>
      by_cases hc : c.Met
      · rcases List.mem_cons.1 hd with rfl | hd
        · exact absurd hc hbroken
        · obtain ⟨x, hx⟩ := ih hd
          exact ⟨x, .later hc hx⟩
      · obtain ⟨x, hx⟩ := not_forall_not.1 hc
        exact ⟨x, .here hx⟩

/-- The first broken condition is in front, or all in front are met and it is behind. -/
theorem firstBroken_append_iff {cs ds : List Condition} {x : Refusal} :
    FirstBroken (cs ++ ds) x ↔
      FirstBroken cs x ∨ (∀ c ∈ cs, c.Met) ∧ FirstBroken ds x := by
  induction cs with
  | nil =>
    constructor
    · intro h
      exact .inr ⟨by simp, h⟩
    · rintro (⟨⟨⟩⟩ | ⟨-, h⟩)
      exact h
  | cons c cs ih =>
    rw [List.cons_append, List.forall_mem_cons]
    constructor
    · intro h
      cases h with
      | here hx => exact .inl (.here hx)
      | later hmet h =>
        rcases ih.1 h with h | ⟨hall, h⟩
        · exact .inl (.later hmet h)
        · exact .inr ⟨⟨hmet, hall⟩, h⟩
    · rintro (h | ⟨⟨hmet, hall⟩, h⟩)
      · cases h with
        | here hx => exact .here hx
        | later hmet h => exact .later hmet (ih.2 (.inl h))
      · exact .later hmet (ih.2 (.inr ⟨hall, h⟩))

/-! ## Checks -/

/-- A check refuses by conditions: with the refusal of the first one that is broken, and not at all
if there is none. -/
def Decides {α : Type} (check : Except Refusal α) (cs : List Condition) : Prop :=
  ∀ x, check = .error x ↔ FirstBroken cs x

namespace Decides

variable {α β : Type} {cs ds : List Condition}

/-- A check that passes has no conditions left. -/
theorem of_ok {check : Except Refusal α} {a : α} (h : check = .ok a) : Decides check [] := by
  intro x
  rw [h]
  constructor
  · rintro ⟨⟩
  · rintro ⟨⟩

/-- A check that passes has all its conditions met. -/
theorem met {check : Except Refusal α} (h : Decides check cs) {a : α} (ha : check = .ok a) :
    ∀ c ∈ cs, c.Met := by
  intro c hc
  by_contra hbroken
  obtain ⟨x, hx⟩ := exists_firstBroken_iff.2 ⟨c, hc, hbroken⟩
  have herror := (h x).2 hx
  rw [ha] at herror
  cases herror

/-- A check that looks at one condition before it looks at others. -/
theorem cons {check : Except Refusal α} {c : Condition} (hbroken : ∀ x, c x → check = .error x)
    (hmet : c.Met → Decides check cs) : Decides check (c :: cs) := by
  intro x
  by_cases hc : c.Met
  · rw [hmet hc x]
    constructor
    · intro hx
      exact .later hc hx
    · rintro (hx | ⟨-, hx⟩)
      · exact absurd hx (hc x)
      · exact hx
  · obtain ⟨y, hy⟩ := not_forall_not.1 hc
    constructor
    · intro hx
      rw [hbroken y hy] at hx
      cases hx
      exact .here hy
    · rintro (hx | ⟨hall, -⟩)
      · exact hbroken x hx
      · exact absurd hy (hall y)

/-- The same for a demand. -/
theorem demand {check : Except Refusal α} {holds : Prop} {refusal : Refusal}
    (hfail : ¬ holds → check = .error refusal) (hpass : holds → Decides check cs) :
    Decides check (.demand holds refusal :: cs) := by
  apply cons
  · rintro x ⟨hnot, rfl⟩
    exact hfail hnot
  · intro hmet
    exact hpass (Classical.byContradiction fun hnot => hmet refusal ⟨hnot, rfl⟩)

/-- **Checks one after the other** have the conditions of the one and behind them those of the
other, which may use what the one gave. -/
theorem bind {check : Except Refusal α} {next : α → Except Refusal β} (h : Decides check cs)
    (hnext : ∀ a, check = .ok a → Decides (next a) ds) : Decides (check >>= next) (cs ++ ds) := by
  intro x
  rw [firstBroken_append_iff]
  rcases hcheck : check with y | a
  · rw [hcheck] at h
    show Except.error y = Except.error x ↔ _
    constructor
    · rintro ⟨⟩
      exact .inl ((h x).1 rfl)
    · rintro (hx | ⟨hall, -⟩)
      · rw [Except.error.inj ((h x).2 hx)]
      · obtain ⟨c, hc, hbroken⟩ := exists_firstBroken_iff.1 ⟨y, (h y).1 rfl⟩
        exact absurd (hall c hc) hbroken
  · show next a = .error x ↔ _
    rw [hnext a hcheck x]
    constructor
    · intro hx
      exact .inr ⟨h.met hcheck, hx⟩
    · rintro (hx | ⟨-, hx⟩)
      · have herror := (h x).2 hx
        rw [hcheck] at herror
        cases herror
      · exact hx

end Decides

/-! ## The conditions of a request -/

/-- The bits are from 1 to 31. -/
def Width.conditions (bits : Int64) : List Condition :=
  [.demand (1 ≤ bits.toInt ∧ bits.toInt ≤ 31) (.bitsOutOfBounds bits 1 31)]

namespace Sizes

/-- One size is positive. -/
def positive (name : String) (value : Int64) : Condition :=
  .demand (0 < value.toInt) (.notPositive name value)

/-- Sizes are positive, and then a kernel fits into the matrix. -/
def conditions : Sizes Int64 → List Condition
  | signTest length => [positive "LEN" length]
  | convolution rows cols kernel =>
    [positive "A_ROWS" rows, positive "A_COLS" cols, positive "W_DIM" kernel,
      .demand (kernel.toInt ≤ rows.toInt ∧ kernel.toInt ≤ cols.toInt)
        (.kernelTooLarge kernel.toInt.toNat rows.toInt.toNat cols.toInt.toNat)]
  | linearLayer n => [positive "n" n]

end Sizes

/-- A file name says something, and then it spells a plain name. -/
def FileName.conditions (party : Nat) (raw : String) : List Condition :=
  [.demand (raw ≠ "") (.nameEmpty party),
    .demand (∃ name, Spells raw name) (.nameNotPlain party raw)]

namespace Destination

/-- Two file names do not spell the same name. -/
def apart (first second : String) : Condition := fun x =>
  ∃ name, FileName.Spells first name ∧ FileName.Spells second name ∧ x = .nameShared name

/-- Both parties have a file name, and not the same one. -/
def conditionsOfTwo (d : Destination) : List Condition :=
  FileName.conditions 0 d.first ++ .demand d.second.isSome (.nameMissing 1) ::
    match d.second with
    | none => []
    | some second => FileName.conditions 1 second ++ [apart d.first second]

/-- The parties that have a sheet have a file name. Nothing is asked of a name that is not used. -/
def conditions (d : Destination) : Workload → List Condition
  | .signTest => FileName.conditions 0 d.first
  | .convolution | .linearLayer => d.conditionsOfTwo

end Destination

/-- The conditions of a request: on the bits, on the sizes and on the file names. -/
def Request.conditions (r : Request) : List Condition :=
  Width.conditions r.bits ++ (r.sizes.conditions ++ r.destination.conditions r.sizes.workload)

/-! ## The refusals that are given -/

/-- The names of sizes. -/
def Sizes.names : List String := ["LEN", "A_ROWS", "A_COLS", "W_DIM", "n"]

/-- The refusals that a request can meet with: a size has one of the names that sizes have, and none
is too large for an address. -/
def Refusal.IsGiven : Refusal → Prop
  | notPositive name _ => name ∈ Sizes.names
  | notAddressable .. => False
  | _ => True

/-- The condition gives no other refusals. -/
def Condition.IsRegular (c : Condition) : Prop := ∀ x, c x → x.IsGiven

theorem Condition.isRegular_demand {holds : Prop} {refusal : Refusal} :
    (demand holds refusal).IsRegular ↔ ¬ holds → refusal.IsGiven := by
  constructor
  · exact fun h hnot => h refusal ⟨hnot, rfl⟩
  · rintro h _ ⟨hnot, rfl⟩
    exact h hnot

theorem FileName.isRegular_conditions (party : Nat) (raw : String) :
    ∀ c ∈ FileName.conditions party raw, c.IsRegular := by
  simp [FileName.conditions, Condition.isRegular_demand, Refusal.IsGiven]

theorem Sizes.isRegular_conditions (s : Sizes Int64) : ∀ c ∈ s.conditions, c.IsRegular := by
  cases s <;>
    simp [conditions, positive, names, Condition.isRegular_demand, Refusal.IsGiven]

theorem Destination.isRegular_conditionsOfTwo (d : Destination) :
    ∀ c ∈ d.conditionsOfTwo, c.IsRegular := by
  unfold conditionsOfTwo
  simp only [List.forall_mem_append, List.forall_mem_cons]
  refine ⟨FileName.isRegular_conditions 0 d.first,
    Condition.isRegular_demand.2 fun _ => trivial, ?_⟩
  rcases d.second with _ | second
  · simp
  · simp only [List.forall_mem_append, List.forall_mem_singleton]
    refine ⟨FileName.isRegular_conditions 1 second, ?_⟩
    rintro _ ⟨name, -, -, rfl⟩
    trivial

/-- The conditions of a request give the refusals that it can meet with. -/
theorem Request.isRegular_conditions (r : Request) : ∀ c ∈ r.conditions, c.IsRegular := by
  unfold conditions
  simp only [List.forall_mem_append]
  refine ⟨?_, r.sizes.isRegular_conditions, ?_⟩
  · simp [Width.conditions, Condition.isRegular_demand, Refusal.IsGiven]
  · cases r.sizes with
    | signTest => exact FileName.isRegular_conditions 0 r.destination.first
    | convolution => exact r.destination.isRegular_conditionsOfTwo
    | linearLayer => exact r.destination.isRegular_conditionsOfTwo

/-- **What a request is refused with** is one of these refusals. -/
theorem Request.isGiven_of_firstBroken {r : Request} {x : Refusal}
    (h : FirstBroken r.conditions x) : x.IsGiven := by
  obtain ⟨c, hc, hbroken⟩ := h.exists_mem
  exact r.isRegular_conditions c hc x hbroken

/-- **No size is refused for being too large for an address.** -/
theorem Request.not_firstBroken_notAddressable (r : Request) (name : String) (value : Int64) :
    ¬ FirstBroken r.conditions (.notAddressable name value) :=
  fun h => isGiven_of_firstBroken h

/-! ## Refusing by conditions -/

theorem Width.decides_accept (bits : Int64) : Decides (Width.accept bits) (conditions bits) := by
  apply Decides.demand
  · intro h
    have hbits : ¬ (1 ≤ bits.toInt.toNat ∧ bits.toInt.toNat ≤ 31) := by omega
    rw [accept, ofInt64?, dif_neg hbits]
    rfl
  · intro h
    have hbits : 1 ≤ bits.toInt.toNat ∧ bits.toInt.toNat ≤ 31 := by omega
    apply Decides.of_ok
    rw [accept, ofInt64?, dif_pos hbits]

namespace Sizes

theorem decides_acceptOne (name : String) (value : Int64) :
    Decides (acceptOne name value) [positive name value] := by
  apply Decides.demand
  · intro h
    have hle : value ≤ 0 := by
      rw [Int64.le_iff_toInt_le, Int64.toInt_zero]
      omega
    rw [acceptOne, if_pos hle]
  · intro h
    exact .of_ok (acceptOne_eq_ok_iff.2 ⟨h, rfl⟩)

/-- Sizes are refused by their conditions. -/
theorem decides_accept (s : Sizes Int64) : Decides s.accept s.conditions := by
  cases s with
  | signTest length =>
    apply (decides_acceptOne "LEN" length).bind
    intro n _
    exact .of_ok rfl
  | linearLayer n =>
    apply (decides_acceptOne "n" n).bind
    intro n _
    exact .of_ok rfl
  | convolution rows cols kernel =>
    apply (decides_acceptOne "A_ROWS" rows).bind
    intro m hm
    apply (decides_acceptOne "A_COLS" cols).bind
    intro n hn
    apply (decides_acceptOne "W_DIM" kernel).bind
    intro k hk
    obtain ⟨hm, rfl⟩ := acceptOne_eq_ok_iff.1 hm
    obtain ⟨hn, rfl⟩ := acceptOne_eq_ok_iff.1 hn
    obtain ⟨hk, rfl⟩ := acceptOne_eq_ok_iff.1 hk
    apply Decides.demand
    · intro h
      exact if_pos (by omega)
    · intro h
      exact .of_ok (if_neg (by omega))

theorem workload_of_accept {raw : Sizes Int64} {s : Sizes Nat} (h : raw.accept = .ok s) :
    s.workload = raw.workload := by
  obtain ⟨-, -, rfl⟩ := accept_eq_ok_iff.1 h
  cases raw <;> rfl

end Sizes

/-- A file name is refused by its conditions. -/
theorem FileName.decides_accept (party : Nat) (raw : String) :
    Decides (accept party raw) (conditions party raw) := by
  apply Decides.demand
  · intro hempty
    rw [accept, if_pos (Decidable.not_not.1 hempty)]
  · intro hne
    apply Decides.demand
    · intro hnone
      rcases hplain : plain? raw with _ | name
      · rw [accept, if_neg hne, hplain]
      · exact absurd ⟨name, plain?_eq_some_iff_spells.1 hplain⟩ hnone
    · rintro ⟨name, hname⟩
      exact .of_ok (accept_eq_ok_iff.2 ⟨hne, plain?_eq_some_iff_spells.2 hname⟩)

theorem FileName.spells_of_accept {party : Nat} {raw name : String}
    (h : accept party raw = .ok name) : Spells raw name :=
  plain?_eq_some_iff_spells.1 (accept_eq_ok_iff.1 h).2

namespace Destination

/-- The names of two parties are refused by the conditions on them. -/
theorem decides_accept_of_two (d : Destination) {w : Workload} (hw : w.partyCount = 2) :
    Decides (d.accept w) d.conditionsOfTwo := by
  unfold accept conditionsOfTwo
  apply (FileName.decides_accept 0 d.first).bind
  intro first hfirst
  rw [if_neg (by omega)]
  apply Decides.demand
  · intro hnone
    rw [Option.not_isSome_iff_eq_none.1 hnone]
    rfl
  · intro hsome
    obtain ⟨raw, hraw⟩ := Option.isSome_iff_exists.1 hsome
    rw [hraw]
    apply (FileName.decides_accept 1 raw).bind
    intro second hsecond
    have hspells := FileName.spells_of_accept hsecond
    apply Decides.cons
    · rintro x ⟨name, hname, hname', rfl⟩
      rw [hspells.unique hname', (FileName.spells_of_accept hfirst).unique hname]
      exact if_pos rfl
    · intro hmet
      refine .of_ok (if_neg ?_)
      rintro rfl
      exact hmet _ ⟨second, FileName.spells_of_accept hfirst, hspells, rfl⟩

/-- Destinations are refused by their conditions. -/
theorem decides_accept (d : Destination) (w : Workload) :
    Decides (d.accept w) (d.conditions w) := by
  cases w with
  | signTest =>
    show Decides (d.accept .signTest) (FileName.conditions 0 d.first)
    rw [← List.append_nil (FileName.conditions 0 d.first)]
    apply (FileName.decides_accept 0 d.first).bind
    intro first _
    exact .of_ok rfl
  | convolution => exact d.decides_accept_of_two rfl
  | linearLayer => exact d.decides_accept_of_two rfl

end Destination

/-- **Planning refuses by the conditions of the request.** -/
theorem Request.decides_plan (r : Request) : Decides r.plan r.conditions := by
  unfold plan conditions
  apply (Width.decides_accept r.bits).bind
  intro width _
  apply r.sizes.decides_accept.bind
  intro sizes hsizes
  rw [← Sizes.workload_of_accept hsizes, ← List.append_nil (Destination.conditions _ _)]
  apply (r.destination.decides_accept sizes.workload).bind
  intro destination _
  exact .of_ok rfl

end PartyInputs
