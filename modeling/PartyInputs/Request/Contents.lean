import PartyInputs.Request.Plan

/-!
# Contents of the files

What the files of a plan hold, without a file system: one stream fills the sheets in order, each
into a sink that takes everything.
-/

namespace PartyInputs

/-- The contents of successive sheets that one stream fills. -/
def Sheet.fillAll : List Sheet → ValueStream → Except Fault (List (List UInt8))
  | [], _ => .ok []
  | sheet :: sheets, stream =>
    match sheet.fill {} stream with
    | ⟨.error fault, _, _⟩ => .error fault
    | ⟨.ok _, sink, stream⟩ => (fillAll sheets stream).map (sink.octets :: ·)

/-- The contents of the parties' files, party 0 first. -/
def Plan.contents (p : Plan) : Except Fault (List (List UInt8)) :=
  Sheet.fillAll p.sheets p.stream

end PartyInputs
