import ApiModel.Document.Printer
import ApiModel.Files
import ApiModel.Main
import ApiModel.Proofs.Recursion
import ApiModel.Proofs.Completeness
import ApiModel.Proofs.Overrides
import ApiModel.Proofs.Collisions
import ApiModel.Proofs.Stubs
import ApiModel.Proofs.SelfReferences
import ApiModel.Proofs.ReferenceCase
import ApiModel.Proofs.Origins
import ApiModel.Proofs.Reordering
import ApiModel.Proofs.Dispatch
import ApiModel.Proofs.Histories
import ApiModel.Proofs.EnumAgreement
import ApiModel.Proofs.References
import ApiModel.Proofs.Malformed
import ApiModel.Proofs.Flattening
import ApiModel.Proofs.Narrowing
import ApiModel.Proofs.Selection
import ApiModel.Proofs.BaseGraphs
import ApiModel.Proofs.Leniency
import ApiModel.Proofs.OperationIds
import ApiModel.Proofs.RoundTrips
import ApiModel.Proofs.Parameters
import ApiModel.Proofs.Isolation
import ApiModel.Proofs.InlineNames
import ApiModel.Proofs.Undeclared
import ApiModel.Proofs.Naming
import ApiModel.Proofs.SnakeCase
import ApiModel.Proofs.EnumSymbols
import ApiModel.Proofs.InheritedProperties
import ApiModel.Proofs.Routing
