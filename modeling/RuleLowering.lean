import RuleLowering.Demo
import RuleLowering.Form.Same
import RuleLowering.Main
import RuleLowering.Workspace
import RuleLowering.Proofs.Splice
import RuleLowering.Proofs.Diagnosis
import RuleLowering.Proofs.Location
import RuleLowering.Proofs.Sorted
import RuleLowering.Proofs.Identities
import RuleLowering.Proofs.Exports
import RuleLowering.Proofs.SelfSame
import RuleLowering.Proofs.RoundTrip
import RuleLowering.Proofs.Emitted
import RuleLowering.Proofs.SecondPass
import RuleLowering.Proofs.Clash
import RuleLowering.Proofs.SameData
import RuleLowering.Proofs.SameReading
import RuleLowering.Proofs.Reload
import RuleLowering.Proofs.JsonNumber
import RuleLowering.Proofs.JsonText
import RuleLowering.Proofs.JsonDocument
import RuleLowering.Proofs.Malformed
import RuleLowering.Proofs.Inventory
import RuleLowering.Proofs.Described
import RuleLowering.Proofs.Accounting
import RuleLowering.Proofs.Appended
import RuleLowering.Proofs.Insertions
import RuleLowering.Proofs.Wording
import RuleLowering.Proofs.Agreement
import RuleLowering.Proofs.Parameters
import RuleLowering.Proofs.Placement
import RuleLowering.Proofs.Grammar
import RuleLowering.Proofs.Reading
import RuleLowering.Proofs.Acceptance
import RuleLowering.Proofs.Faithful
import RuleLowering.Proofs.Refusal
import RuleLowering.Proofs.Writable
import RuleLowering.Proofs.Verdict
import RuleLowering.Proofs.JsonData
import RuleLowering.Proofs.KeyOrder
import RuleLowering.Proofs.Reordered
import RuleLowering.Proofs.Alike
import RuleLowering.Proofs.Reshaped
import RuleLowering.Proofs.AlikeLowering
import RuleLowering.Proofs.AlikeReading
import RuleLowering.Proofs.Reordering
import RuleLowering.Proofs.Arranged
import RuleLowering.Proofs.Rerun
import RuleLowering.Proofs.Recovery
import RuleLowering.Proofs.Declared
import RuleLowering.Proofs.Printed
import RuleLowering.Proofs.Grouping
import RuleLowering.Proofs.Files
import RuleLowering.Proofs.Output
import RuleLowering.Proofs.Plan
import RuleLowering.Proofs.StringLiteral
import RuleLowering.Proofs.PrintedAttribute
import RuleLowering.Proofs.FreshNames
import RuleLowering.Proofs.LeadingForms
import RuleLowering.Proofs.CommentLines
import RuleLowering.Proofs.OptionDocuments
