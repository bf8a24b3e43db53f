import Mathlib.Data.List.Forall2

/-!
# Steps that can fail

Success of a computation with faults, said of its parts, and which fault it reports.

* `bind_eq_ok_iff`: two steps one after the other.
* `map_eq_ok_iff`: a step and what is made of its result.
* `mapM_eq_ok_iff`: one step for each element of a list.
* `mapM_eq_error_iff`: **the first step that fails** is the one that is reported.
* `mapM_eq_mapError`: steps whose faults are those of other steps, said differently.
* `exists_forall₂_iff`: whether such steps can all succeed.
* `forall₂_comp`, `forall₂_and`, `map_eq_map_iff_forall₂`: lists side by side.
-/

namespace PartyInputs

/-- Two steps that can fail succeed iff the first one does and then the second one. -/
theorem bind_eq_ok_iff {ε α β : Type} {x : Except ε α} {f : α → Except ε β} {b : β} :
    x >>= f = .ok b ↔ ∃ a, x = .ok a ∧ f a = .ok b := by
  rcases x with e | a
  · constructor
    · intro h; cases h
    · rintro ⟨a, h, -⟩; cases h
  · constructor
    · intro h; exact ⟨a, rfl, h⟩
    · rintro ⟨a', h, hf⟩; cases h; exact hf

/-- What is made of the result of a step is there iff the result is. -/
theorem map_eq_ok_iff {ε α β : Type} {x : Except ε α} {f : α → β} {b : β} :
    x.map f = .ok b ↔ ∃ a, x = .ok a ∧ f a = b := by
  rcases x with e | a
  · constructor
    · intro h; cases h
    · rintro ⟨a, h, -⟩; cases h
  · constructor
    · intro h; cases h; exact ⟨a, rfl, rfl⟩
    · rintro ⟨a', h, rfl⟩; cases h; rfl

/-- What is made of the result of a step does not change its fault. -/
theorem map_eq_error_iff {ε α β : Type} {x : Except ε α} {f : α → β} {fault : ε} :
    x.map f = .error fault ↔ x = .error fault := by
  rcases x with e | a
  · constructor
    · intro h; cases h; rfl
    · intro h; cases h; rfl
  · constructor
    · intro h; cases h
    · intro h; cases h

/-- A traversal that can fail gives `ys` iff each of its steps gives the element of `ys` in the same
place. -/
theorem mapM_eq_ok_iff {α β ε : Type} {f : α → Except ε β} {xs : List α} {ys : List β} :
    xs.mapM f = .ok ys ↔ List.Forall₂ (fun x y => f x = .ok y) xs ys := by
  induction xs generalizing ys with
  | nil =>
    rw [List.mapM_nil, List.forall₂_nil_left_iff]
    constructor
    · intro h; cases h; rfl
    · rintro rfl; rfl
  | cons x xs ih =>
    rw [List.mapM_cons, List.forall₂_cons_left_iff]
    constructor
    · intro h
      rcases hx : f x with fault | y
      · rw [hx] at h; cases h
      · rcases hxs : xs.mapM f with fault | zs
        · rw [hx, hxs] at h; cases h
        · rw [hx, hxs] at h
          cases h
          exact ⟨y, zs, rfl, ih.1 hxs, rfl⟩
    · rintro ⟨y, zs, hx, hxs, rfl⟩
      rw [hx, ih.2 hxs]
      rfl

/-- A traversal fails at its first step or, if that one succeeds, later. -/
theorem mapM_cons_eq_error_iff {α β ε : Type} {f : α → Except ε β} {x : α} {xs : List α}
    {fault : ε} :
    (x :: xs).mapM f = .error fault ↔
      f x = .error fault ∨ (∃ y, f x = .ok y) ∧ xs.mapM f = .error fault := by
  rw [List.mapM_cons]
  rcases f x with e | y
  · constructor
    · intro h; cases h; exact .inl rfl
    · rintro (h | ⟨⟨y, h⟩, -⟩)
      · cases h; rfl
      · cases h
  · rcases xs.mapM f with e | ys
    · constructor
      · intro h; cases h; exact .inr ⟨⟨y, rfl⟩, rfl⟩
      · rintro (h | ⟨-, h⟩)
        · cases h
        · cases h; rfl
    · constructor
      · intro h; cases h
      · rintro (h | ⟨-, h⟩) <;> cases h

/-- **A traversal fails with the fault of the first step that fails.** -/
theorem mapM_eq_error_iff {α β ε : Type} {f : α → Except ε β} {xs : List α} {fault : ε} :
    xs.mapM f = .error fault ↔
      ∃ front x back, xs = front ++ x :: back ∧ (∀ y ∈ front, ∃ z, f y = .ok z) ∧
        f x = .error fault := by
  induction xs with
  | nil =>
    constructor
    · intro h; cases h
    · rintro ⟨front, x, back, h, -⟩
      exact absurd h (by simp)
  | cons x xs ih =>
    rw [mapM_cons_eq_error_iff, ih]
    constructor
    · rintro (hx | ⟨hx, front, z, back, rfl, hfront, hz⟩)
      · exact ⟨[], x, xs, rfl, by simp, hx⟩
      · exact ⟨x :: front, z, back, rfl, List.forall_mem_cons.2 ⟨hx, hfront⟩, hz⟩
    · rintro ⟨front, z, back, heq, hfront, hz⟩
      rcases front with _ | ⟨w, front⟩
      · cases heq
        exact .inl hz
      · cases heq
        obtain ⟨hx, hrest⟩ := List.forall_mem_cons.1 hfront
        exact .inr ⟨hx, front, z, back, rfl, hrest, hz⟩

/-- If the faults of each step are those of another one, said differently, so are the faults of all
steps. -/
theorem mapM_eq_mapError {α β ε ε' : Type} {f : α → Except ε' β} {g : α → Except ε β} {r : ε → ε'}
    {xs : List α} (h : ∀ x ∈ xs, f x = (g x).mapError r) :
    xs.mapM f = (xs.mapM g).mapError r := by
  induction xs with
  | nil => rfl
  | cons x xs ih =>
    obtain ⟨hx, hxs⟩ := List.forall_mem_cons.1 h
    rw [List.mapM_cons, List.mapM_cons, hx, ih hxs]
    rcases g x with fault | y
    · rfl
    · rcases xs.mapM g with fault | ys
      · rfl
      · rfl

/-! ## Lists side by side -/

/-- Every element has a partner iff there is a list of partners. -/
theorem exists_forall₂_iff {α β : Type} {R : α → β → Prop} {xs : List α} :
    (∃ ys, List.Forall₂ R xs ys) ↔ ∀ x ∈ xs, ∃ y, R x y := by
  induction xs with
  | nil => simp
  | cons x xs ih =>
    rw [List.forall_mem_cons, ← ih]
    constructor
    · rintro ⟨ys, h⟩
      obtain ⟨y, zs, hy, hzs, -⟩ := List.forall₂_cons_left_iff.1 h
      exact ⟨⟨y, hy⟩, zs, hzs⟩
    · rintro ⟨⟨y, hy⟩, zs, hzs⟩
      exact ⟨y :: zs, .cons hy hzs⟩

/-- What stands side by side with something in between stands side by side. -/
theorem forall₂_comp {α β γ : Type} {R : α → β → Prop} {S : β → γ → Prop} {xs : List α}
    {ys : List β} {zs : List γ} (h : List.Forall₂ R xs ys) (h' : List.Forall₂ S ys zs) :
    List.Forall₂ (fun x z => ∃ y, R x y ∧ S y z) xs zs := by
  induction h generalizing zs with
  | nil =>
    cases h'
    exact .nil
  | cons hR _ ih =>
    cases h' with
    | cons hS hrest => exact .cons ⟨_, hR, hS⟩ (ih hrest)

/-- Every element of the first list has its partner beside it. -/
theorem exists_mem_zip_of_forall₂ {α β : Type} {R : α → β → Prop} {xs : List α} {ys : List β}
    (h : List.Forall₂ R xs ys) {x : α} (hx : x ∈ xs) : ∃ y, (x, y) ∈ xs.zip ys ∧ R x y := by
  induction h with
  | nil => cases hx
  | cons hR _ ih =>
    rcases List.mem_cons.1 hx with rfl | hx
    · exact ⟨_, List.mem_cons_self, hR⟩
    · obtain ⟨y, hy, hR'⟩ := ih hx
      exact ⟨y, List.mem_cons_of_mem _ hy, hR'⟩

/-- What stands side by side in two ways stands so in both. -/
theorem forall₂_and {α β : Type} {R S : α → β → Prop} {xs : List α} {ys : List β}
    (h : List.Forall₂ R xs ys) (h' : List.Forall₂ S xs ys) :
    List.Forall₂ (fun x y => R x y ∧ S x y) xs ys := by
  rw [List.forall₂_iff_zip] at h h' ⊢
  exact ⟨h.1, fun hmem => ⟨h.2 hmem, h'.2 hmem⟩⟩

/-- Two lists are mapped to the same one iff what stands side by side is. -/
theorem map_eq_map_iff_forall₂ {α β γ : Type} {f : α → γ} {g : β → γ} {xs : List α}
    {ys : List β} : xs.map f = ys.map g ↔ List.Forall₂ (fun x y => f x = g y) xs ys := by
  rw [← List.forall₂_eq_eq_eq, List.forall₂_map_left_iff, List.forall₂_map_right_iff]

end PartyInputs
