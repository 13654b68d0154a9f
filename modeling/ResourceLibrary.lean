import ResourceLibrary.Library.Consumption
import ResourceLibrary.Library.Export
import ResourceLibrary.Library.Inspection
import ResourceLibrary.Library.Loading
import ResourceLibrary.Proofs.Arena.Descent
import ResourceLibrary.Proofs.Arena.Planting
import ResourceLibrary.Proofs.Arena.Parts
import ResourceLibrary.Proofs.Walk.PostOrder
import ResourceLibrary.Proofs.Walk.PreOrder
import ResourceLibrary.Proofs.Library.Frozen
import ResourceLibrary.Proofs.Text.Coordinates
import ResourceLibrary.Proofs.Library.Batch
import ResourceLibrary.Proofs.Library.Registration
import ResourceLibrary.Proofs.Library.Motion
import ResourceLibrary.Proofs.Library.Effects
import ResourceLibrary.Proofs.Library.Session
import ResourceLibrary.Proofs.Library.Agreement
import ResourceLibrary.Proofs.Library.Likeness
import ResourceLibrary.Proofs.Library.Correspondence
import ResourceLibrary.Proofs.Library.WalkAgreement
import ResourceLibrary.Proofs.Library.ProviderAgreement
import ResourceLibrary.Proofs.Library.OrderAgreement
import ResourceLibrary.Proofs.Library.PathOrder
import ResourceLibrary.Proofs.Library.SelectionAgreement
import ResourceLibrary.Proofs.Library.ExportAgreement
import ResourceLibrary.Proofs.Library.Independence
import ResourceLibrary.Proofs.Library.DependencyOrder
import ResourceLibrary.Proofs.Library.Numbering
import ResourceLibrary.Proofs.Library.Repetition
import ResourceLibrary.Proofs.Library.Sorting
import ResourceLibrary.Proofs.Library.Aggregation
import ResourceLibrary.Proofs.Library.Always
import ResourceLibrary.Proofs.Library.Choice
import ResourceLibrary.Proofs.Library.ModuleOrder
import ResourceLibrary.Proofs.Library.Consumers
import ResourceLibrary.Proofs.Library.Citations
import ResourceLibrary.Proofs.Library.Noting
import ResourceLibrary.Proofs.Library.Recursion
import ResourceLibrary.Proofs.Library.Returning
import ResourceLibrary.Proofs.Library.OrderReturning
import ResourceLibrary.Proofs.Library.ConsumersReturning
import ResourceLibrary.Proofs.Library.Termination
import ResourceLibrary.Proofs.Library.Includes
import ResourceLibrary.Proofs.Library.Answering
import ResourceLibrary.Proofs.Library.Exporting
import ResourceLibrary.Proofs.Library.Copying
import ResourceLibrary.Proofs.Library.Counterparts
import ResourceLibrary.Proofs.Library.RoundTrip
import ResourceLibrary.Proofs.Library.SelfContained
import ResourceLibrary.Proofs.Library.Inheritance
import ResourceLibrary.Proofs.Library.SiblingOrder
import ResourceLibrary.Proofs.Library.Fragments
import ResourceLibrary.Proofs.Library.Synthesis
import ResourceLibrary.Proofs.Declaration.RoundTrip
import ResourceLibrary.Proofs.Text.Normalization
import ResourceLibrary.Proofs.Library.Basedirs
import ResourceLibrary.Proofs.Library.Categories
import ResourceLibrary.Proofs.Arena.WithoutBuild
import ResourceLibrary.Proofs.Library.WithoutBuild
import ResourceLibrary.Proofs.Library.Classpath
import ResourceLibrary.Proofs.Library.Confinement
import ResourceLibrary.Proofs.Library.Lookups
import ResourceLibrary.Proofs.Config.Precedence
import ResourceLibrary.Proofs.Text.Joining
import ResourceLibrary.Proofs.Config.Containment
import ResourceLibrary.Proofs.Text.References
import ResourceLibrary.Proofs.Library.References
import ResourceLibrary.Proofs.Library.Resorting
import ResourceLibrary.Proofs.Walk.Ending
import ResourceLibrary.Proofs.Properties.Substitution
