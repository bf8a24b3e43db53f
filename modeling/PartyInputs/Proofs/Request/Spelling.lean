import PartyInputs.Proofs.Request.Names

/-!
# Spellings of a plain name

Which texts denote which entry, said without cutting any text: a spelling of a name is the name with
pieces around it that say nothing, all of them joined by slashes.

* `FileName.Spells`: a text spells a name.
* `FileName.plain?_eq_some_iff_spells`: **the names that are accepted are the ones that are
  spelled**, so no text spells two (`FileName.Spells.unique`).
* `FileName.Spells.mem_toList_iff`: but for slashes and dots, a spelling has the characters of the
  name.
-/

namespace PartyInputs.FileName

/-- A piece of a text between slashes that says nothing. -/
def Silent (piece : String) : Prop := piece = "" ∨ piece = "."

/-- `raw` spells the plain name `name`: it is the name with silent pieces in front of it and behind
it, joined by slashes. An empty piece at the very front would make it start at the root. -/
structure Spells (raw name : String) : Prop where
  plain : IsPlain name
  pieces : ∃ front back : List String, raw = "/".intercalate (front ++ name :: back) ∧
    (∀ piece ∈ front ++ back, Silent piece) ∧ front.head? ≠ some ""

/-! ## Cutting a spelling -/

/-- A text is its pieces, joined by slashes. -/
theorem intercalate_pieces (raw : String) : "/".intercalate (pieces raw) = raw := by
  apply String.toList_injective
  have htoList : String.toList ∘ String.ofList = id := funext fun _ => String.toList_ofList
  rw [String.toList_intercalate, pieces, List.map_map, htoList, List.map_id]
  exact List.intercalate_splitOn '/'

/-- Pieces without slashes are got back by cutting. -/
theorem pieces_intercalate {list : List String} (hne : list ≠ [])
    (hslash : ∀ piece ∈ list, '/' ∉ piece.toList) : pieces ("/".intercalate list) = list := by
  have hofList : String.ofList ∘ String.toList = id := funext fun _ => String.ofList_toList
  have hsplit : (("/".intercalate list).toList).splitOn '/' = list.map String.toList := by
    rw [String.toList_intercalate]
    apply List.splitOn_intercalate
    · intro piece hpiece
      obtain ⟨s, hs, rfl⟩ := List.mem_map.1 hpiece
      exact hslash s hs
    · simpa using hne
  rw [pieces, hsplit, List.map_map, hofList, List.map_id]

/-- A text starts at the root iff its first piece is empty and not its only one. -/
theorem head?_intercalate {first : String} (rest : List String) (hslash : '/' ∉ first.toList) :
    ("/".intercalate (first :: rest)).toList.head? = some '/' ↔ first = "" ∧ rest ≠ [] := by
  rw [String.toList_intercalate, List.map_cons]
  have hhead : first.toList.head? ≠ some '/' := fun h => hslash (List.mem_of_head? h)
  rcases rest with _ | ⟨second, rest⟩
  · simp [hhead]
  · rw [List.map_cons, List.intercalate_cons_cons]
    rcases hfirst : first.toList with _ | ⟨c, cs⟩
    · simp [String.toList_eq_nil_iff.1 hfirst]
    · have hne : first ≠ "" := by
        rintro rfl
        cases hfirst
      rw [hfirst] at hhead
      simpa [hne] using hhead

/-- Silent pieces are the ones that are not kept as segments. -/
theorem silent_iff {piece : String} :
    Silent piece ↔ ¬ decide (piece ≠ "" ∧ piece ≠ ".") = true := by
  simp [Silent, Decidable.or_iff_not_imp_left]

theorem Silent.slash_notMem {piece : String} (h : Silent piece) : '/' ∉ piece.toList := by
  rcases h with rfl | rfl
  · decide
  · decide

/-- Among silent pieces a plain name is the only segment. -/
theorem filter_eq_singleton {front back : List String} {name : String} (hplain : IsPlain name)
    (hsilent : ∀ piece ∈ front ++ back, Silent piece) :
    (front ++ name :: back).filter (fun s => s ≠ "" ∧ s ≠ ".") = [name] := by
  have hkept : decide (name ≠ "" ∧ name ≠ ".") = true :=
    decide_eq_true ⟨hplain.ne_empty, hplain.ne_dot⟩
  have hfront : front.filter (fun s => s ≠ "" ∧ s ≠ ".") = [] := List.filter_eq_nil_iff.2
    fun s hs => silent_iff.1 (hsilent s (List.mem_append_left _ hs))
  have hback : back.filter (fun s => s ≠ "" ∧ s ≠ ".") = [] := List.filter_eq_nil_iff.2
    fun s hs => silent_iff.1 (hsilent s (List.mem_append_right _ hs))
  rw [List.filter_append, hfront, List.filter_cons, if_pos hkept, hback, List.nil_append]

/-- **A text denotes a plain entry iff it spells its name.** -/
theorem plain?_eq_some_iff_spells {raw name : String} :
    plain? raw = some name ↔ Spells raw name := by
  rw [plain?_eq_some_iff]
  constructor
  · rintro ⟨hroot, hsegments, hdots⟩
    obtain ⟨hempty, hdot, hslash⟩ := of_mem_segments (hsegments ▸ List.mem_singleton_self name)
    unfold segments at hsegments
    obtain ⟨front, back, hpieces, hfront, -, hback⟩ := List.filter_eq_cons_iff.1 hsegments
    rw [List.filter_eq_nil_iff] at hback
    have hraw := (intercalate_pieces raw).symm
    rw [hpieces] at hraw
    refine ⟨⟨hempty, hslash, hdot, hdots⟩, front, back, hraw, ?_, ?_⟩
    · intro piece hpiece
      rcases List.mem_append.1 hpiece with hpiece | hpiece
      · exact silent_iff.2 (hfront piece hpiece)
      · exact silent_iff.2 (hback piece hpiece)
    · -- an empty piece at the front would make the text start at the root
      intro hfirst
      obtain ⟨rest, rfl⟩ := List.head?_eq_some_iff.1 hfirst
      apply hroot
      rw [hraw, List.cons_append, head?_intercalate _ (by decide)]
      exact ⟨rfl, by simp⟩
  · rintro ⟨hplain, front, back, rfl, hsilent, hfirst⟩
    have hslash : ∀ piece ∈ front ++ name :: back, '/' ∉ piece.toList := by
      intro piece hpiece
      rcases List.mem_append.1 hpiece with hpiece | hpiece
      · exact (hsilent piece (List.mem_append_left _ hpiece)).slash_notMem
      · rcases List.mem_cons.1 hpiece with rfl | hpiece
        · exact hplain.slash_notMem
        · exact (hsilent piece (List.mem_append_right _ hpiece)).slash_notMem
    refine ⟨?_, ?_, hplain.ne_dots⟩
    · rcases front with _ | ⟨first, front⟩
      · rw [List.nil_append, ne_eq, head?_intercalate _ hplain.slash_notMem]
        exact fun h => hplain.ne_empty h.1
      · rw [List.cons_append, ne_eq, head?_intercalate _ (hslash first (by simp))]
        exact fun h => hfirst (by rw [h.1]; rfl)
    · rw [segments, pieces_intercalate (by simp) hslash]
      exact filter_eq_singleton hplain hsilent

/-- No text spells two names. -/
theorem Spells.unique {raw name other : String} (h : Spells raw name) (h' : Spells raw other) :
    name = other := by
  rw [← plain?_eq_some_iff_spells] at h h'
  rw [h] at h'
  exact Option.some.inj h'

/-! ## Characters of a spelling -/

/-- A character that is not a slash is in joined pieces iff it is in one of them. -/
theorem mem_toList_intercalate_iff {c : Char} (hslash : c ≠ '/') (list : List String) :
    c ∈ ("/".intercalate list).toList ↔ ∃ piece ∈ list, c ∈ piece.toList := by
  rw [String.toList_intercalate]
  induction list with
  | nil => simp
  | cons first rest ih =>
    simp only [List.mem_cons, exists_eq_or_imp, ← ih]
    rcases rest with _ | ⟨second, rest⟩
    · simp
    · rw [List.map_cons, List.map_cons, List.intercalate_cons_cons]
      simp [hslash]

/-- **A spelling has the characters of the name** and no others, but for slashes and dots. -/
theorem Spells.mem_toList_iff {raw name : String} (h : Spells raw name) {c : Char}
    (hslash : c ≠ '/') (hdot : c ≠ '.') : c ∈ raw.toList ↔ c ∈ name.toList := by
  obtain ⟨front, back, rfl, hsilent, -⟩ := h.pieces
  have hnot : ∀ piece, Silent piece → c ∉ piece.toList := by
    rintro piece (rfl | rfl)
    · simp
    · simpa using hdot
  rw [mem_toList_intercalate_iff hslash]
  constructor
  · rintro ⟨piece, hpiece, hc⟩
    rcases List.mem_append.1 hpiece with hfront | hback
    · exact absurd hc (hnot piece (hsilent piece (List.mem_append_left _ hfront)))
    · rcases List.mem_cons.1 hback with rfl | hback
      · exact hc
      · exact absurd hc (hnot piece (hsilent piece (List.mem_append_right _ hback)))
  · intro hc
    exact ⟨name, by simp, hc⟩

end PartyInputs.FileName
