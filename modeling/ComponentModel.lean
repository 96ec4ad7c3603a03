import ComponentModel.Text
import ComponentModel.Decimal.Layout
import ComponentModel.Decimal.Numeral
import ComponentModel.Model.Document
import ComponentModel.Markup.Element
import ComponentModel.Model.Validation
import ComponentModel.Model.Folder
import ComponentModel.Analysis.Classification
import ComponentModel.Code.Pipeline
import ComponentModel.Proofs.Determination
import ComponentModel.Proofs.Coverage
import ComponentModel.Proofs.Dataflow
import ComponentModel.Proofs.Dependencies
import ComponentModel.Proofs.Confluence
import ComponentModel.Proofs.Rendering
import ComponentModel.Proofs.Cells
import ComponentModel.Proofs.Computation
import ComponentModel.Proofs.Conversion
import ComponentModel.Proofs.InitialValues
import ComponentModel.Proofs.Acceptance
import ComponentModel.Proofs.Imports.Cycles
import ComponentModel.Proofs.Imports.Connections
import ComponentModel.Proofs.Imports.Units
import ComponentModel.Proofs.Documents
import ComponentModel.Proofs.Procedures
import ComponentModel.Proofs.Recomputation
import ComponentModel.Proofs.FirstOrder
import ComponentModel.Proofs.SignedRendering
import ComponentModel.Proofs.AdjacentSigns
import ComponentModel.Proofs.NumberTexts
import ComponentModel.Proofs.Chains
import ComponentModel.Proofs.CSyntax.Functions
import ComponentModel.Proofs.LogarithmRendering
import ComponentModel.Proofs.PythonSyntax.Grammar
import ComponentModel.Proofs.PythonSyntax.Powers
import ComponentModel.Proofs.PowerRendering
import ComponentModel.Proofs.PythonSyntax.Conditionals
import ComponentModel.Proofs.PythonSyntax.Operands
import ComponentModel.Proofs.ConditionalRendering
import ComponentModel.Proofs.Equivalence
import ComponentModel.Proofs.Adoption
import ComponentModel.Proofs.IntegrationVariable
import ComponentModel.Proofs.InitialOrder
import ComponentModel.Proofs.Units.Resolution
import ComponentModel.Proofs.Repetition
import ComponentModel.Proofs.EquationKinds
import ComponentModel.Proofs.Markup.Balance
import ComponentModel.Proofs.Validity.Tidiness
import ComponentModel.Proofs.Profiles
import ComponentModel.Proofs.Arena.Orders
import ComponentModel.Proofs.ReferenceLists
import ComponentModel.Proofs.SuppliedFunctions
import ComponentModel.Proofs.CSyntax.Constants
import ComponentModel.Proofs.Numbering
