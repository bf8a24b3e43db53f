import PartyInputs.Main
import PartyInputs.Proofs.Run.Sessions
import PartyInputs.Text.Utf8
import PartyInputs.Workload.Pool
import PartyInputs.Proofs.Table.Grammar
import PartyInputs.Proofs.Table.Canonical
import PartyInputs.Proofs.Values.Balance
import PartyInputs.Proofs.Report.Certification
import PartyInputs.Proofs.Run.Refusing
import PartyInputs.Proofs.Run.Repeating
import PartyInputs.Proofs.Request.WellFormed
import PartyInputs.Proofs.Workload.Positions
import PartyInputs.Proofs.Disk.Saving
import PartyInputs.Proofs.Command.Reporting
import PartyInputs.Proofs.Command.Overwriting
import PartyInputs.Proofs.Command.Verdict
import PartyInputs.Proofs.Command.Accepting
import PartyInputs.Proofs.Table.Accounts
import PartyInputs.Proofs.Table.Leads
import PartyInputs.Proofs.Workload.Outcomes
import PartyInputs.Proofs.Table.Places
import PartyInputs.Proofs.Table.Faults
import PartyInputs.Proofs.Table.Joining
import PartyInputs.Proofs.Report.Coherence
import PartyInputs.Proofs.Request.Normalizing
import PartyInputs.Proofs.Disk.Removing
import PartyInputs.Proofs.Report.Collecting
import PartyInputs.Proofs.Text.Delimited
import PartyInputs.Proofs.Text.Escaping
import PartyInputs.Proofs.Text.Grouping
import PartyInputs.Proofs.Text.Sentence
import PartyInputs.Proofs.Report.Messages
import PartyInputs.Proofs.Text.Objects
import PartyInputs.Proofs.Report.Lossless
import PartyInputs.Proofs.Values.Rescaling
import PartyInputs.Proofs.Request.Widths
import PartyInputs.Proofs.Run.Naming
import PartyInputs.Proofs.Run.Logging
