import PartyInputs.Disk.Path
import PartyInputs.Proofs.Text.Octets
import PartyInputs.Request.Plan

/-!
# Plain names and the paths made of them

A file name is accepted when it comes down to one plain entry of a directory. The path that is made
of a directory and such a name has the name as its last one and no slash behind it, so two names
make two paths.

* `FileName.IsPlain`: what a plain entry is called.
* `FileName.Component.sole?_map_ofSegment_eq_some_iff`: segments come down to an entry iff there is
  no other and it does not lead upwards.
* `FileName.plain?_eq_some_iff`, `FileName.accept_eq_ok_iff`: which names are accepted, and as what.
* `FileName.isPlain_of_accept`: **accepted names are plain**.
* `Route.names_pathOf`: the names on the way to an entry are those of its directory and its own.
-/

namespace PartyInputs

/-! ## Plain names -/

namespace FileName

/-- The name of an entry: something, without a slash, and not one of the two names that stand for
directories. -/
structure IsPlain (name : String) : Prop where
  ne_empty : name ≠ ""
  slash_notMem : '/' ∉ name.toList
  ne_dot : name ≠ "."
  ne_dots : name ≠ ".."

/-- The pieces of a name that say something: neither empty nor a single dot. -/
def segments (raw : String) : List String := (pieces raw).filter fun s => s ≠ "" ∧ s ≠ "."

/-- Segments of a name are entries, or they lead upwards. -/
theorem of_mem_segments {raw s : String} (h : s ∈ segments raw) :
    s ≠ "" ∧ s ≠ "." ∧ '/' ∉ s.toList := by
  unfold segments pieces at h
  obtain ⟨hs, hne⟩ := List.mem_filter.1 h
  simp only [ne_eq, decide_eq_true_eq] at hne
  refine ⟨hne.1, hne.2, ?_⟩
  obtain ⟨piece, hpiece, rfl⟩ := List.mem_map.1 hs
  rw [List.splitOn_eq_splitOnP] at hpiece
  rw [String.toList_ofList]
  intro hslash
  have := notMem_of_mem_splitOnP hpiece _ hslash
  simp at this

/-! ### Components -/

namespace Component

/-- The component that a segment makes. -/
def ofSegment (s : String) : Component := if s = ".." then up else entry s

/-- The components of a path behind its start are those of its segments. -/
theorem filterMap_ofPiece? (raw : String) :
    (pieces raw).filterMap ofPiece? = (segments raw).map ofSegment := by
  rw [segments, ← List.filterMap_eq_map, List.filterMap_filter]
  congr 1
  funext piece
  by_cases hsilent : piece = "" ∨ piece = "."
  · rw [ofPiece?, if_pos hsilent, if_neg (by simpa [Decidable.or_iff_not_imp_left] using hsilent)]
  · have hkept : decide (piece ≠ "" ∧ piece ≠ ".") = true := by simpa using hsilent
    rw [ofPiece?, if_neg hsilent, if_pos hkept, Function.comp_apply, ofSegment, apply_ite some]

/-- Behind an entry no segment may follow. -/
theorem sole?_some_map_ofSegment {found s : String} {list : List String} :
    sole? (some found) ((s :: list).map ofSegment) = none := by
  rw [List.map_cons, ofSegment]
  split
  · rfl
  · rfl

/-- **Segments come down to an entry** iff there is no other and it does not lead upwards. -/
theorem sole?_map_ofSegment_eq_some_iff {list : List String} {name : String} :
    sole? none (list.map ofSegment) = some name ↔ list = [name] ∧ name ≠ ".." := by
  rcases list with _ | ⟨s, list⟩
  · simp [sole?]
  · rw [List.map_cons]
    by_cases hup : s = ".."
    · rw [ofSegment, if_pos hup]
      constructor
      · rintro ⟨⟩
      · rintro ⟨⟨⟩, hne⟩
        exact absurd hup hne
    · rw [ofSegment, if_neg hup]
      show sole? (some s) (list.map ofSegment) = some name ↔ _
      rcases list with _ | ⟨t, list⟩
      · constructor
        · rintro ⟨⟩
          exact ⟨rfl, hup⟩
        · rintro ⟨⟨⟩, -⟩
          rfl
      · rw [sole?_some_map_ofSegment]
        simp

end Component

/-- A name denotes a plain entry iff it is not rooted and that entry is its only segment. -/
theorem plain?_eq_some_iff {raw name : String} :
    plain? raw = some name ↔
      raw.toList.head? ≠ some '/' ∧ segments raw = [name] ∧ name ≠ ".." := by
  unfold plain? Component.ofPath Component.ofStart?
  rw [Component.filterMap_ofPiece?]
  by_cases hroot : raw.toList.head? = some '/'
  · rw [if_pos hroot]
    constructor
    · rintro ⟨⟩
    · rintro ⟨hne, -⟩
      exact absurd hroot hne
  · rw [if_neg hroot, ← Component.sole?_map_ofSegment_eq_some_iff]
    -- a dot in front stays where we are
    have hstart : ∀ rest, Component.sole? none
        ((if (pieces raw).head? = some "." then some Component.here else none).toList ++ rest) =
          Component.sole? none rest := by
      intro rest
      split
      · rfl
      · rfl
    rw [hstart]
    constructor
    · intro h
      exact ⟨hroot, h⟩
    · rintro ⟨-, h⟩
      exact h

/-- A name is accepted iff it says something and denotes a plain entry. -/
theorem accept_eq_ok_iff {party : Nat} {raw name : String} :
    accept party raw = .ok name ↔ raw ≠ "" ∧ plain? raw = some name := by
  unfold accept
  by_cases hempty : raw = ""
  · rw [if_pos hempty]
    constructor
    · intro h; cases h
    · rintro ⟨hne, -⟩; exact absurd hempty hne
  · rw [if_neg hempty]
    rcases plain? raw with _ | plain
    · constructor
      · intro h; cases h
      · rintro ⟨-, h⟩; cases h
    · constructor
      · intro h; cases h; exact ⟨hempty, rfl⟩
      · rintro ⟨-, h⟩; cases h; rfl

/-- **Accepted names are plain.** -/
theorem isPlain_of_accept {party : Nat} {raw name : String} (h : accept party raw = .ok name) :
    IsPlain name := by
  obtain ⟨-, hplain⟩ := accept_eq_ok_iff.1 h
  obtain ⟨-, hsegments, hdots⟩ := plain?_eq_some_iff.1 hplain
  have hmem : name ∈ segments raw := by
    rw [hsegments]
    exact List.mem_singleton_self _
  obtain ⟨hempty, hdot, hslash⟩ := of_mem_segments hmem
  exact ⟨hempty, hslash, hdot, hdots⟩

end FileName

/-! ## Paths of entries -/

namespace Route

theorem names_empty : (ofPath "").names = [] := by decide

/-- A plain name alone is its only name. -/
theorem names_plain {name : String} (h : FileName.IsPlain name) : (ofPath name).names = [name] := by
  unfold ofPath
  simp only
  rw [List.splitOn_eq_singleton h.slash_notMem]
  simp [h.ne_empty]

/-- A slash and what follows it add names behind the others. -/
theorem names_slash (front back : List Char) :
    (ofPath (String.ofList (front ++ '/' :: back))).names =
      (ofPath (String.ofList front)).names ++ (ofPath (String.ofList back)).names := by
  unfold ofPath
  simp only [String.toList_ofList]
  rw [List.splitOn_append_cons_self, List.map_append, List.filter_append]

/-- **The names on the way to an entry** are those of its directory and its own. -/
theorem names_pathOf (directory : String) {name : String} (h : FileName.IsPlain name) :
    (ofPath (Destination.pathOf directory name)).names = (ofPath directory).names ++ [name] := by
  unfold Destination.pathOf
  by_cases hdir : directory = ""
  · rw [if_pos (.inl hdir), hdir, String.empty_append, names_plain h, names_empty, List.nil_append]
  · by_cases hlast : directory.toList.getLast? = some '/'
    · -- the slash between the two belongs to the directory
      obtain ⟨front, hfront⟩ := List.getLast?_eq_some_iff.1 hlast
      have hdirectory : directory = String.ofList (front ++ '/' :: []) := by
        rw [← hfront, String.ofList_toList]
      have hpath : directory ++ name = String.ofList (front ++ '/' :: name.toList) := by
        apply String.toList_injective
        rw [hdirectory]
        simp
      rw [if_pos (.inr hlast), hpath, names_slash, String.ofList_toList, names_plain h, hdirectory,
        names_slash, String.ofList_nil, names_empty, List.append_nil]
    · have hpath : directory ++ "/" ++ name =
          String.ofList (directory.toList ++ '/' :: name.toList) := by
        apply String.toList_injective
        simp
      rw [if_neg (not_or.2 ⟨hdir, hlast⟩), hpath, names_slash, String.ofList_toList,
        String.ofList_toList, names_plain h]

end Route

end PartyInputs
